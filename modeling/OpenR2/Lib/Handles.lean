import Mathlib.Data.List.Induction

namespace Handles

variable {H : Type*}

/-- What is done with the handles of one resource. An initialisation is passed a handle, if
there is one, and returns one unless it fails. -/
inductive Use (H : Type*) where
  | init (given got : Option H)
  | dispose (h : Option H)
  | use (h : Option H)

/-- The handles that the last initialisation has made or kept valid, those that were disposed
and not made again, and whether one of these was used. -/
structure Ledger (H : Type*) where
  valid : List H
  dead : List H
  misused : Bool

namespace Ledger

/-- Nothing has been done yet. -/
def opened : Ledger H := ⟨[], [], false⟩

/-- No disposed handle was used, and a holder of this handle will use none. -/
structure Safe (l : Ledger H) (h : Option H) : Prop where
  alive : ∀ x, h = some x → x ∉ l.dead
  sound : l.misused = false

/-- The handle is one that the last initialisation has made or kept valid. -/
def Usable (l : Ledger H) (h : Option H) : Prop := ∃ x ∈ l.valid, h = some x

/-- The initialisation succeeds with this handle, and leaves it to the one who passes it. -/
def Renews (keeps : Bool) (given got : Option H) : Prop :=
  ∃ x y, given = some x ∧ got = some y ∧ (keeps = true ∨ y = x)

theorem safe_opened (h : Option H) : (opened : Ledger H).Safe h :=
  ⟨fun _ _ => List.not_mem_nil, rfl⟩

variable [DecidableEq H]

/-- An initialisation may keep the handle valid that it is passed. -/
def record (keeps : Bool) (l : Ledger H) : Use H → Ledger H
  | .init _ none => { l with valid := [] }
  | .init given (some h) =>
    { l with
      valid := h :: if keeps then given.toList.filter (· ∉ l.dead) else []
      dead := l.dead.filter (· ≠ h) }
  | .dispose none | .use none => l
  | .dispose (some h) => { l with valid := l.valid.filter (· ≠ h), dead := h :: l.dead }
  | .use (some h) => { l with misused := l.misused || decide (h ∈ l.dead) }

variable {keeps : Bool} {l : Ledger H} {h got : Option H}

theorem Safe.use (hs : l.Safe h) : (l.record keeps (.use h)).Safe h := by
  cases h with
  | none => exact hs
  | some x => exact ⟨hs.alive, by simp [record, hs.sound, hs.alive x rfl]⟩

theorem Usable.use {x : Option H} (hu : l.Usable h) : (l.record keeps (.use x)).Usable h := by
  cases x <;> exact hu

/-- A disposed handle is to be forgotten. -/
theorem Safe.dispose (hs : l.Safe h) : (l.record keeps (.dispose h)).Safe none := by
  cases h with
  | none => exact ⟨nofun, hs.sound⟩
  | some x => exact ⟨nofun, hs.sound⟩

theorem Safe.init (hs : l.Safe h) (given : Option H) : (l.record keeps (.init given got)).Safe h := by
  cases got with
  | none => exact ⟨hs.alive, hs.sound⟩
  | some y => exact ⟨fun x hx hm => hs.alive x hx (List.mem_filter.mp hm).1, hs.sound⟩

/-- What an initialisation returns can be used. -/
theorem Safe.take (keeps : Bool) (hs : l.Safe h) (given : Option H) (x : H) :
    (l.record keeps (.init given (some x))).Safe (some x) ∧
      (l.record keeps (.init given (some x))).Usable (some x) := by
  refine ⟨⟨fun y hy hm => ?_, hs.sound⟩, x, List.mem_cons_self, rfl⟩
  obtain rfl := Option.some.inj hy
  simpa using (List.mem_filter.mp hm).2

/-- So can the handle that was passed, where the initialisation leaves it. -/
theorem Safe.renew (hs : l.Safe h) (hr : Renews keeps h got) :
    (l.record keeps (.init h got)).Usable h := by
  obtain ⟨x, y, rfl, rfl, hk⟩ := hr
  refine ⟨x, ?_, rfl⟩
  rcases hk with rfl | rfl
  · simp [record, hs.alive x rfl]
  · exact List.mem_cons_self

end Ledger

section Account

variable {α : Type*} [DecidableEq H]

/-- The ledger after these acts, each of which may be a use, as told by the acts before it. -/
def account (uses : List α → α → Option (Use H)) (keeps : Bool) (l : Ledger H) (as : List α) :
    Ledger H :=
  (as.foldl (fun s a => (s.1 ++ [a], (uses s.1 a).elim s.2 (s.2.record keeps))) (([] : List α), l)).2

variable {uses : List α → α → Option (Use H)} {keeps : Bool} {l : Ledger H}

theorem account_concat (as : List α) (a : α) : account uses keeps l (as ++ [a]) =
    (uses as a).elim (account uses keeps l as) ((account uses keeps l as).record keeps) := by
  have hfst : ∀ (bs cs : List α) (m : Ledger H),
      (bs.foldl (fun s a => (s.1 ++ [a], (uses s.1 a).elim s.2 (s.2.record keeps))) (cs, m)).1 = cs ++ bs := by
    intro bs
    induction bs with
    | nil => simp
    | cons b bs ih => intro cs m; simp [ih]
  simp only [account, List.foldl_append, List.foldl_cons, List.foldl_nil]
  rw [hfst as [] l, List.nil_append]

theorem account_of_none {as : List α} {a : α} (h : uses as a = none) :
    account uses keeps l (as ++ [a]) = account uses keeps l as := by
  rw [account_concat, h]
  rfl

theorem account_of_some {as : List α} {a : α} {u : Use H} (h : uses as a = some u) :
    account uses keeps l (as ++ [a]) = (account uses keeps l as).record keeps u := by
  rw [account_concat, h]
  rfl

/-- Acts that are no uses. -/
theorem account_append_of_none (as bs : List α) (h : ∀ cs, ∀ b ∈ bs, uses cs b = none) :
    account uses keeps l (as ++ bs) = account uses keeps l as := by
  induction bs using List.reverseRecOn with
  | nil => rw [List.append_nil]
  | append_singleton bs b ih =>
    rw [← List.append_assoc, account_of_none (h _ b (by simp)), ih fun cs x hx => h cs x (by simp [hx])]

/-- Plain uses make no handle and end none. -/
theorem account_append_valid (as bs : List α) (h : ∀ cs, ∀ b ∈ bs, uses cs b = none ∨ ∃ x, uses cs b = some (.use x)) :
    (account uses keeps l (as ++ bs)).valid = (account uses keeps l as).valid := by
  induction bs using List.reverseRecOn with
  | nil => rw [List.append_nil]
  | append_singleton bs b ih =>
    have hi := ih fun cs x hx => h cs x (by simp [hx])
    rw [← List.append_assoc]
    rcases h (as ++ bs) b (by simp) with hn | ⟨x, hx⟩
    · rw [account_of_none hn, hi]
    · rw [account_of_some hx, ← hi]
      cases x <;> rfl

end Account

end Handles
