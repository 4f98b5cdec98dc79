import Mathlib.Data.List.Induction
import Mathlib.Logic.Basic
import Mathlib.Tactic.TypeStar

namespace Runs

variable {σ ι o : Type*}

/-- The state after a list of inputs, and all the outputs in order. -/
def exec (f : σ → ι → σ × List o) : List ι → σ → σ × List o
  | [], s => (s, [])
  | i :: is, s =>
    let r := f s i
    let t := exec f is r.1
    (t.1, r.2 ++ t.2)

/-- Every input of the list is one that is allowed in the state in which it comes. -/
def Along (f : σ → ι → σ × List o) (ok : σ → ι → Prop) : List ι → σ → Prop
  | [], _ => True
  | i :: is, s => ok s i ∧ Along f ok is (f s i).1

variable {f : σ → ι → σ × List o} {ok : σ → ι → Prop}

theorem Along.of_forall {p : ι → Prop} (is : List ι) (s : σ) (h : ∀ i ∈ is, p i) :
    Along f (fun _ i => p i) is s := by
  induction is generalizing s with
  | nil => trivial
  | cons i is ih =>
    exact ⟨h i List.mem_cons_self, ih _ fun j hj => h j (List.mem_cons_of_mem _ hj)⟩

theorem Along.always (h : ∀ s i, ok s i) (is : List ι) (s : σ) : Along f ok is s := by
  induction is generalizing s with
  | nil => trivial
  | cons i is ih => exact ⟨h s i, ih _⟩

/-- What holds at the start and is kept by every allowed input holds at the end. -/
theorem exec_invariant {P : σ → Prop} (hs : ∀ s i, ok s i → P s → P (f s i).1) (is : List ι)
    (s : σ) (ha : Along f ok is s) (hp : P s) : P (exec f is s).1 := by
  induction is generalizing s with
  | nil => exact hp
  | cons i is ih => exact ih _ ha.2 (hs s i ha.1 hp)

/-- Where every allowed step is matched by one of another machine with the same outputs, the
runs have the same outputs. -/
theorem exec_refines {τ : Type*} {g : τ → ι → τ × List o} {R : σ → τ → Prop}
    (hs : ∀ s t i, ok s i → R s t → (f s i).2 = (g t i).2 ∧ R (f s i).1 (g t i).1) (is : List ι)
    (s : σ) (t : τ) (ha : Along f ok is s) (hr : R s t) :
    (exec f is s).2 = (exec g is t).2 ∧ R (exec f is s).1 (exec g is t).1 := by
  induction is generalizing s t with
  | nil => exact ⟨rfl, hr⟩
  | cons i is ih =>
    obtain ⟨ho, hn⟩ := hs s t i ha.1 hr
    obtain ⟨hos, hns⟩ := ih _ _ ha.2 hn
    exact ⟨congrArg₂ (· ++ ·) ho hos, hns⟩

/-- What every allowed step outputs, from the states it can start in. -/
theorem exec_outputs {P : σ → Prop} {q : o → Prop}
    (hs : ∀ s i, ok s i → P s → (∀ a ∈ (f s i).2, q a) ∧ P (f s i).1) (is : List ι) (s : σ)
    (ha : Along f ok is s) (hp : P s) : ∀ a ∈ (exec f is s).2, q a := by
  induction is generalizing s with
  | nil => simp [exec]
  | cons i is ih =>
    obtain ⟨hq, hn⟩ := hs s i ha.1 hp
    intro a hm
    rcases List.mem_append.mp hm with hm | hm
    · exact hq a hm
    · exact ih _ ha.2 hn a hm

/-- What every allowed step keeps that does not output a stop, as long as there is none. -/
theorem exec_until {P : σ → Prop} (stop : o → Prop)
    (hs : ∀ s i, ok s i → P s → (∃ a ∈ (f s i).2, stop a) ∨ P (f s i).1) (is : List ι) (s : σ)
    (ha : Along f ok is s) (hp : P s) (hn : ∀ a ∈ (exec f is s).2, ¬ stop a) : P (exec f is s).1 := by
  induction is generalizing s with
  | nil => exact hp
  | cons i is ih =>
    have hn' : ∀ a ∈ (f s i).2 ++ (exec f is (f s i).1).2, ¬ stop a := hn
    rcases hs s i ha.1 hp with ⟨a, hm, hx⟩ | hp
    · exact absurd hx (hn' a (List.mem_append_left _ hm))
    · exact ih _ ha.2 hp fun a hm => hn' a (List.mem_append_right _ hm)

/-- Where wrong steps are bad, and all others are not and keep the invariant or output a stop:
nothing bad happens before the first stop if and only if nothing wrong does. -/
theorem until_iff {P : σ → Prop} (stop : o → Prop) (bad wrong : σ → ι → Prop)
    (hs : ∀ s i, P s → ¬ wrong s i → ¬ bad s i ∧ ((∃ a ∈ (f s i).2, stop a) ∨ P (f s i).1))
    (hn : ∀ s i, P s → wrong s i → bad s i) (is : List ι) (s : σ) (hp : P s) :
    (∀ js i, js ++ [i] <+: is → (∀ a ∈ (exec f js s).2, ¬ stop a) → ¬ bad (exec f js s).1 i) ↔
      ∀ js i, js ++ [i] <+: is → (∀ a ∈ (exec f js s).2, ¬ stop a) → ¬ wrong (exec f js s).1 i := by
  induction is generalizing s with
  | nil =>
    have hno : ∀ (js : List ι) (i : ι), ¬ js ++ [i] <+: [] := by
      intro js i h
      exact List.append_ne_nil_of_right_ne_nil js (List.cons_ne_nil i []) (List.prefix_nil.mp h)
    exact iff_of_true (fun js i h => (hno js i h).elim) fun js i h => (hno js i h).elim
  | cons x xs ih =>
    have hfirst : [] ++ [x] <+: x :: xs := List.prefix_append [x] xs
    by_cases hw : wrong s x
    · refine iff_of_false (fun h => ?_) fun h => ?_
      · exact h [] x hfirst (by simp [exec]) (hn s x hp hw)
      · exact h [] x hfirst (by simp [exec]) hw
    obtain ⟨hb, hx⟩ := hs s x hp hw
    -- a later step is one of the run that is left, unless there was a stop
    have hlater : ∀ q : σ → ι → Prop, ¬ q s x →
        ((∀ js i, js ++ [i] <+: x :: xs → (∀ a ∈ (exec f js s).2, ¬ stop a) → ¬ q (exec f js s).1 i) ↔
          ((∀ a ∈ (f s x).2, ¬ stop a) → ∀ js i, js ++ [i] <+: xs →
            (∀ a ∈ (exec f js (f s x).1).2, ¬ stop a) → ¬ q (exec f js (f s x).1).1 i)) := by
      intro q hq
      constructor
      · intro h hno js i hj hjs
        refine h (x :: js) i (List.cons_prefix_cons.mpr ⟨rfl, hj⟩) fun a ha => ?_
        exact (List.mem_append.mp ha).elim (hno a) (hjs a)
      · intro h js i hj hjs
        cases js with
        | nil =>
          obtain ⟨rfl, -⟩ := List.cons_prefix_cons.mp hj
          exact hq
        | cons j js =>
          obtain ⟨rfl, htail⟩ := List.cons_prefix_cons.mp hj
          refine h (fun a ha => hjs a (List.mem_append_left _ ha)) js i htail fun a ha => ?_
          exact hjs a (List.mem_append_right _ ha)
    rw [hlater bad hb, hlater wrong hw]
    refine forall_congr' fun hno => ih _ ?_
    exact hx.resolve_left fun ⟨a, ha, hst⟩ => hno a ha hst

/-- A run on what is made of its inputs. -/
theorem exec_map {κ : Type*} (g : κ → ι) (is : List κ) (s : σ) :
    exec (fun s i => f s (g i)) is s = exec f (is.map g) s := by
  induction is generalizing s with
  | nil => rfl
  | cons i is ih => simp only [exec, List.map_cons, ih]

/-- A run in two parts. -/
theorem exec_append (is js : List ι) (s : σ) :
    exec f (is ++ js) s =
      ((exec f js (exec f is s).1).1, (exec f is s).2 ++ (exec f js (exec f is s).1).2) := by
  induction is generalizing s with
  | nil => rfl
  | cons i is ih => simp only [List.cons_append, exec, ih, List.append_assoc]

theorem Along.append {is js : List ι} {s : σ} (h : Along f ok (is ++ js) s) :
    Along f ok is s ∧ Along f ok js (exec f is s).1 := by
  induction is generalizing s with
  | nil => exact ⟨trivial, h⟩
  | cons i is ih => exact ⟨⟨h.1, (ih h.2).1⟩, (ih h.2).2⟩

theorem Along.last {is js : List ι} {i : ι} {s : σ} (h : Along f ok is s) (hj : js ++ [i] <+: is) :
    ok (exec f js s).1 i := by
  obtain ⟨ks, rfl⟩ := hj
  exact h.append.1.append.2.1

theorem along_iff {is : List ι} {s : σ} :
    Along f ok is s ↔ ∀ js i, js ++ [i] <+: is → ok (exec f js s).1 i := by
  refine ⟨fun h js i hj => h.last hj, fun h => ?_⟩
  induction is generalizing s with
  | nil => trivial
  | cons x is ih =>
    refine ⟨h [] x (List.prefix_append [x] is), ih fun js i hj => ?_⟩
    exact h (x :: js) i (List.cons_prefix_cons.mpr ⟨rfl, hj⟩)

/-- The steps of a run, by their places. -/
theorem steps_iff {P : List ι → ι → Prop} {is : List ι} :
    (∀ js i, js ++ [i] <+: is → P js i) ↔ ∀ n (h : n < is.length), P (is.take n) is[n] := by
  constructor
  · intro h n hn
    refine h _ _ ?_
    rw [List.take_append_getElem hn]
    exact List.take_prefix _ _
  · rintro h js i ⟨ks, rfl⟩
    have hn := h js.length (by simp)
    simpa using hn

/-- What every step keeps that is not wrong and does not output a stop, as long as there is
neither. -/
theorem exec_while {P : σ → Prop} (stop : o → Prop) (wrong : σ → ι → Prop)
    (hs : ∀ s i, P s → ¬ wrong s i → (∃ a ∈ (f s i).2, stop a) ∨ P (f s i).1) (is : List ι) (s : σ)
    (hp : P s)
    (hn : ∀ js i, js ++ [i] <+: is → (∀ a ∈ (exec f js s).2, ¬ stop a) → ¬ wrong (exec f js s).1 i)
    (hl : ∀ a ∈ (exec f is s).2, ¬ stop a) : P (exec f is s).1 := by
  have ha : Along f (fun s i => ¬ wrong s i) is s := by
    refine along_iff.mpr fun js i hj => hn js i hj fun a ha => hl a ?_
    obtain ⟨ks, rfl⟩ := hj
    rw [List.append_assoc, exec_append]
    exact List.mem_append_left _ ha
  exact exec_until stop (fun s i h hp => hs s i hp h) is s ha hp hl

/-- The last reset, if there was one, came before some step of this kind. -/
def Since (f : σ → ι → σ × List o) (reset : o → Prop) (kind : σ → ι → Prop) (is : List ι) (s : σ) :
    Prop :=
  ∃ js i ks, is = js ++ i :: ks ∧ kind (exec f js s).1 i ∧
    ∀ a ∈ (exec f (i :: ks) (exec f js s).1).2, ¬ reset a

variable {reset : o → Prop} {kind : σ → ι → Prop}

theorem not_since_nil (s : σ) : ¬ Since f reset kind [] s := by
  rintro ⟨js, i, ks, h, -⟩
  exact List.append_ne_nil_of_right_ne_nil js (List.cons_ne_nil i ks) h.symm

theorem Since.exists_mem {is : List ι} {s : σ} (h : Since f reset kind is s) :
    ∃ i ∈ is, ∃ s', kind s' i := by
  obtain ⟨js, i, ks, rfl, hk, -⟩ := h
  exact ⟨i, List.mem_append_right js List.mem_cons_self, _, hk⟩

theorem since_snoc (is : List ι) (i : ι) (s : σ) :
    Since f reset kind (is ++ [i]) s ↔
      (Since f reset kind is s ∨ kind (exec f is s).1 i) ∧ ∀ a ∈ (f (exec f is s).1 i).2, ¬ reset a := by
  constructor
  · rintro ⟨js, j, ks, h, hk, hn⟩
    rcases List.eq_nil_or_concat ks with rfl | ⟨ks, k, rfl⟩
    · obtain ⟨rfl, hj⟩ := List.append_inj' h rfl
      obtain rfl := List.singleton_inj.mp hj
      exact ⟨.inr hk, fun a ha => hn a (List.mem_append_left _ ha)⟩
    · rw [List.concat_eq_append] at h hn
      have h : is ++ [i] = (js ++ j :: ks) ++ [k] := by simpa using h
      obtain ⟨rfl, hj⟩ := List.append_inj' h rfl
      obtain rfl := List.singleton_inj.mp hj
      rw [← List.cons_append, exec_append] at hn
      refine ⟨.inl ⟨js, j, ks, rfl, hk, fun a ha => hn a (List.mem_append_left _ ha)⟩, fun a ha => ?_⟩
      rw [exec_append] at ha
      refine hn a (List.mem_append_right _ (List.mem_append_left _ ?_))
      exact ha
  · rintro ⟨⟨js, j, ks, rfl, hk, hn⟩ | hk, hi⟩
    · refine ⟨js, j, ks ++ [i], by simp, hk, fun a ha => ?_⟩
      rw [← List.cons_append, exec_append] at ha
      rw [exec_append] at hi
      rcases List.mem_append.mp ha with ha | ha
      · exact hn a ha
      · exact hi a (by simpa [exec] using ha)
    · exact ⟨is, i, [], rfl, hk, fun a ha => hi a (by simpa [exec] using ha)⟩

/-- What every allowed step keeps, of a state and of whether such a step has come since the
last reset. What is allowed may depend on both. -/
theorem exec_since {P : Prop → σ → Prop} {ok : Prop → σ → ι → Prop}
    (hs : ∀ p s i, ok p s i → P p s → P ((p ∨ kind s i) ∧ ∀ a ∈ (f s i).2, ¬ reset a) (f s i).1)
    (is : List ι) (s : σ)
    (ha : ∀ js i, js ++ [i] <+: is → ok (Since f reset kind js s) (exec f js s).1 i)
    (hp : P False s) : P (Since f reset kind is s) (exec f is s).1 := by
  induction is using List.reverseRecOn with
  | nil =>
    rw [eq_false (not_since_nil s)]
    exact hp
  | append_singleton is i ih =>
    rw [since_snoc, exec_append]
    exact hs _ _ i (ha is i (List.prefix_refl _))
      (ih fun js j hj => ha js j (hj.trans (List.prefix_append is [i])))

/-- Between a start and the next stop. -/
structure Watch (o : Type*) where
  start : o → Prop
  stop : o → Prop
  bad : o → Prop
  [decStart : DecidablePred start]
  [decStop : DecidablePred stop]

namespace Watch

variable (w : Watch o)

instance : DecidablePred w.start := w.decStart
instance : DecidablePred w.stop := w.decStop

def next (on : Bool) (a : o) : Bool :=
  if w.stop a then false else if w.start a then true else on

/-- Is the watch on after these outputs? -/
def after (on : Bool) (l : List o) : Bool := l.foldl w.next on

/-- Nothing bad comes while the watch is on. -/
def Clean : Bool → List o → Prop
  | _, [] => True
  | on, a :: l => (on = true → ¬ w.bad a) ∧ Clean (w.next on a) l

theorem after_append (on : Bool) (l m : List o) : w.after on (l ++ m) = w.after (w.after on l) m :=
  List.foldl_append

theorem clean_append (on : Bool) (l m : List o) :
    w.Clean on (l ++ m) ↔ w.Clean on l ∧ w.Clean (w.after on l) m := by
  induction l generalizing on with
  | nil => simp [Clean, after]
  | cons a l ih =>
    simp only [List.cons_append, Clean, ih, and_assoc]
    rfl

/-- While no stop comes, the watch stays on and nothing bad comes. -/
theorem clean_on {l : List o} (hc : w.Clean true l) (hs : ∀ a ∈ l, ¬ w.stop a) :
    (∀ a ∈ l, ¬ w.bad a) ∧ w.after true l = true := by
  induction l with
  | nil => simp [after]
  | cons a l ih =>
    have hn : w.next true a = true := by simp [next, hs a List.mem_cons_self]
    obtain ⟨hb, hl⟩ := ih (hn ▸ hc.2) fun b hb => hs b (List.mem_cons_of_mem _ hb)
    refine ⟨List.forall_mem_cons.mpr ⟨hc.1 rfl, hb⟩, ?_⟩
    change w.after (w.next true a) l = true
    rw [hn, hl]

/-- After a start, and until a stop, nothing bad comes. -/
theorem clean_between {on : Bool} {pre mid : List o} {a : o} (hc : w.Clean on (pre ++ a :: mid))
    (ha : w.start a) (hn : ¬ w.stop a) (hs : ∀ b ∈ mid, ¬ w.stop b) :
    (∀ b ∈ mid, ¬ w.bad b) ∧ w.after on (pre ++ a :: mid) = true := by
  rw [w.after_append]
  have h := ((w.clean_append on pre (a :: mid)).mp hc).2.2
  rw [show w.next (w.after on pre) a = true by simp [next, ha, hn]] at h
  obtain ⟨hb, hl⟩ := w.clean_on h hs
  refine ⟨hb, ?_⟩
  change w.after (w.next (w.after on pre) a) mid = true
  rw [show w.next (w.after on pre) a = true by simp [next, ha, hn], hl]

/-- Outputs that neither start the watch nor stop it. -/
theorem after_quiet {l : List o} (h : ∀ a ∈ l, ¬ w.start a ∧ ¬ w.stop a) (on : Bool) :
    w.after on l = on := by
  induction l generalizing on with
  | nil => rfl
  | cons a l ih =>
    obtain ⟨hs, ht⟩ := h a List.mem_cons_self
    change w.after (w.next on a) l = on
    rw [ih fun b hb => h b (List.mem_cons_of_mem _ hb), next, if_neg ht, if_neg hs]

/-- Without a start the watch stays off. -/
theorem after_off {l : List o} (h : ∀ a ∈ l, ¬ w.start a) : w.after false l = false := by
  induction l with
  | nil => rfl
  | cons a l ih =>
    change w.after (w.next false a) l = false
    rw [next, if_neg (h a List.mem_cons_self), ite_self]
    exact ih fun b hb => h b (List.mem_cons_of_mem _ hb)

theorem clean_quiet {l : List o} (h : ∀ a ∈ l, ¬ w.bad a) (on : Bool) : w.Clean on l := by
  induction l generalizing on with
  | nil => trivial
  | cons a l ih =>
    exact ⟨fun _ => h a List.mem_cons_self, ih (fun b hb => h b (List.mem_cons_of_mem _ hb)) _⟩

/-- Where something bad comes the watch is off. -/
theorem clean_at {on : Bool} {pre post : List o} {a : o} (hc : w.Clean on (pre ++ a :: post))
    (hb : w.bad a) : w.after on pre = false :=
  eq_false_of_ne_true fun h => ((w.clean_append on pre (a :: post)).mp hc).2.1 h hb

/-- A watch that was on is off because of its last stop. -/
theorem stopped {l : List o} (h : w.after true l = false) :
    ∃ pre a mid, l = pre ++ a :: mid ∧ w.stop a ∧ ∀ b ∈ mid, ¬ w.start b := by
  induction l using List.reverseRecOn with
  | nil => exact absurd h (by simp [after])
  | append_singleton l a ih =>
    rw [after_append] at h
    by_cases ht : w.stop a
    · exact ⟨l, a, [], rfl, ht, by simp⟩
    · have hs : ¬ w.start a := fun hs => by simp [after, next, ht, hs] at h
      obtain ⟨pre, b, mid, rfl, hb, hm⟩ := ih (by simpa [after, next, ht, hs] using h)
      refine ⟨pre, b, mid ++ [a], by simp, hb, fun x hx => ?_⟩
      rcases List.mem_append.mp hx with hx | hx
      · exact hm x hx
      · rwa [List.mem_singleton.mp hx]

/-- The watch on outputs that look at a part of each. -/
def comap {m : Type*} (w : Watch m) (g : o → Option m) : Watch o where
  start a := ∃ b ∈ g a, w.start b
  stop a := ∃ b ∈ g a, w.stop b
  bad a := ∃ b ∈ g a, w.bad b
  decStart a := by cases g a <;> exact inferInstance
  decStop a := by cases g a <;> exact inferInstance

section Comap

variable {m : Type*} (w : Watch m) (g : o → Option m)

theorem comap_next_none {a : o} (h : g a = none) (on : Bool) : (w.comap g).next on a = on := by
  simp [next, comap, h]

theorem comap_next_some {a : o} {b : m} (h : g a = some b) (on : Bool) :
    (w.comap g).next on a = w.next on b := by
  simp [next, comap, h]

theorem comap_after (on : Bool) (l : List o) :
    (w.comap g).after on l = w.after on (l.filterMap g) := by
  induction l generalizing on with
  | nil => rfl
  | cons a l ih =>
    change (w.comap g).after ((w.comap g).next on a) l = _
    rw [ih]
    cases h : g a with
    | none => rw [w.comap_next_none g h, List.filterMap_cons_none h]
    | some b =>
      rw [w.comap_next_some g h, List.filterMap_cons_some h]
      rfl

theorem comap_clean (on : Bool) (l : List o) :
    (w.comap g).Clean on l ↔ w.Clean on (l.filterMap g) := by
  induction l generalizing on with
  | nil => exact Iff.rfl
  | cons a l ih =>
    cases h : g a with
    | none =>
      have hb : ¬ (w.comap g).bad a := by simp [comap, h]
      rw [Clean, ih, w.comap_next_none g h, List.filterMap_cons_none h]
      exact and_iff_right fun _ => hb
    | some b =>
      have hb : (w.comap g).bad a ↔ w.bad b := by simp [comap, h]
      rw [Clean, ih, w.comap_next_some g h, List.filterMap_cons_some h, Clean, hb]

end Comap

/-- A run is clean when every allowed step is, from the states it can start in. -/
theorem exec_clean {P : Bool → σ → Prop}
    (hs : ∀ on s i, ok s i → P on s → w.Clean on (f s i).2 ∧ P (w.after on (f s i).2) (f s i).1)
    (is : List ι) (on : Bool) (s : σ) (ha : Along f ok is s) (hp : P on s) :
    w.Clean on (exec f is s).2 ∧ P (w.after on (exec f is s).2) (exec f is s).1 := by
  induction is generalizing on s with
  | nil => exact ⟨trivial, hp⟩
  | cons i is ih =>
    obtain ⟨hc, hn⟩ := hs on s i ha.1 hp
    obtain ⟨hc', hn'⟩ := ih _ _ ha.2 hn
    simp only [exec]
    exact ⟨(w.clean_append _ _ _).mpr ⟨hc, hc'⟩, by rw [w.after_append]; exact hn'⟩

end Watch

end Runs
