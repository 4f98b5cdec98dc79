import Mathlib.Data.List.Induction
import Mathlib.Data.List.TakeWhile
import OpenR2.AdvancedFile

namespace OpenR2

section Fields

variable (cx : R2Context)

namespace R2Context

theorem tone_setTone (k : ToneKey) (t : Tone) : (cx.setTone k t).tone k = t := by
  cases k with
  | ga k => cases k <;> rfl
  | gb k => cases k <;> rfl
  | gc k => cases k <;> rfl
  | g1 k => cases k <;> rfl
  | g2 k => cases k <;> rfl

theorem tone_setTone_of_ne {k k' : ToneKey} (h : k ≠ k') (t : Tone) :
    (cx.setTone k t).tone k' = cx.tone k' := by
  cases k with
  | ga k => cases k' with
    | ga k' => cases k <;> cases k' <;> first | rfl | exact absurd rfl h
    | _ => rfl
  | gb k => cases k' with
    | gb k' => cases k <;> cases k' <;> first | rfl | exact absurd rfl h
    | _ => rfl
  | gc k => cases k' with
    | gc k' => cases k <;> cases k' <;> first | rfl | exact absurd rfl h
    | _ => rfl
  | g1 k => cases k' with
    | g1 k' => cases k <;> cases k' <;> first | rfl | exact absurd rfl h
    | _ => rfl
  | g2 k => cases k' with
    | g2 k' => cases k <;> cases k' <;> first | rfl | exact absurd rfl h
    | _ => rfl

theorem tone_setNumber (k : ToneKey) (k' : NumberKey) (n : Nat) : (cx.setNumber k' n).tone k = cx.tone k := by
  cases k' with
  | timer k' => cases k <;> rfl
  | setting k' => cases k' <;> cases k <;> rfl

/-- Different fields can be set in any order. -/
theorem setTone_comm {k k' : ToneKey} (h : k ≠ k') (t t' : Tone) :
    (cx.setTone k t).setTone k' t' = (cx.setTone k' t').setTone k t := by
  cases k with
  | ga k => cases k' with
    | ga k' =>
      have hx : ∀ g : GaTones, (g.set k t).set k' t' = (g.set k' t').set k t := by
        intro g
        cases k <;> cases k' <;> first | rfl | exact absurd rfl h
      simp only [setTone, hx]
    | _ => rfl
  | gb k => cases k' with
    | gb k' =>
      have hx : ∀ g : GbTones, (g.set k t).set k' t' = (g.set k' t').set k t := by
        intro g
        cases k <;> cases k' <;> first | rfl | exact absurd rfl h
      simp only [setTone, hx]
    | _ => rfl
  | gc k => cases k' with
    | gc k' =>
      have hx : ∀ g : GcTones, (g.set k t).set k' t' = (g.set k' t').set k t := by
        intro g
        cases k <;> cases k' <;> first | rfl | exact absurd rfl h
      simp only [setTone, hx]
    | _ => rfl
  | g1 k => cases k' with
    | g1 k' =>
      have hx : ∀ g : G1Tones, (g.set k t).set k' t' = (g.set k' t').set k t := by
        intro g
        cases k <;> cases k' <;> first | rfl | exact absurd rfl h
      simp only [setTone, hx]
    | _ => rfl
  | g2 k => cases k' with
    | g2 k' =>
      have hx : ∀ g : G2Tones, (g.set k t).set k' t' = (g.set k' t').set k t := by
        intro g
        cases k <;> cases k' <;> first | rfl | exact absurd rfl h
      simp only [setTone, hx]
    | _ => rfl

theorem setNumber_comm {k k' : NumberKey} (h : k ≠ k') (n n' : Nat) :
    (cx.setNumber k n).setNumber k' n' = (cx.setNumber k' n').setNumber k n := by
  cases k with
  | timer k => cases k' with
    | timer k' =>
      have hx : ∀ t : Timers, (t.set k n).set k' n' = (t.set k' n').set k n := by
        intro t
        cases k <;> cases k' <;> first | rfl | exact absurd rfl h
      simp only [setNumber, hx]
    | setting k' => cases k' <;> rfl
  | setting k => cases k' with
    | timer k' => cases k <;> rfl
    | setting k' => cases k <;> cases k' <;> first | rfl | exact absurd rfl h

theorem setTone_setNumber (k : ToneKey) (t : Tone) (k' : NumberKey) (n : Nat) :
    (cx.setTone k t).setNumber k' n = (cx.setNumber k' n).setTone k t := by
  cases k' with
  | timer k' => cases k <;> rfl
  | setting k' => cases k' <;> cases k <;> rfl

end R2Context

end Fields

section Lines

variable {line : Line} {beyond : Int → Int} {k : ToneKey} {m : NumberKey} {c : Nat} {n : Int}

/-- The texts of all keys. -/
def keys : List String := toneKeys.map ToneKey.text ++ numberKeys.map NumberKey.text

theorem mem_toneKeys (k : ToneKey) : k ∈ toneKeys := by
  cases k with
  | ga k => cases k <;> decide
  | gb k => cases k <;> decide
  | gc k => cases k <;> decide
  | g1 k => cases k <;> decide
  | g2 k => cases k <;> decide

theorem mem_numberKeys (k : NumberKey) : k ∈ numberKeys := by
  cases k with
  | timer k => cases k <;> decide
  | setting k => cases k <;> decide

theorem mem_keys_tone (k : ToneKey) : k.text ∈ keys :=
  List.mem_append_left _ (List.mem_map_of_mem (mem_toneKeys k))

theorem mem_keys_number (k : NumberKey) : k.text ∈ keys :=
  List.mem_append_right _ (List.mem_map_of_mem (mem_numberKeys k))

theorem keys_nodup : keys.Nodup := by
  simp [keys, toneKeys, numberKeys, ToneKey.text, NumberKey.text, GaKey.text, GbKey.text, GcKey.text,
    G1Key.text, G2Key.text, TimerKey.text, SettingKey.text]

theorem toNat_injective : Function.Injective Char.toNat := fun _ _ h => Char.toNat_inj.mp h

theorem bytes_injective : Function.Injective bytes := fun _ _ h =>
  String.toList_inj.mp (toNat_injective.list_map h)

/-- No equals sign is in a key, and no key begins like a line that is skipped. -/
structure Plain (s : String) : Prop where
  equals : 0x3D ∉ bytes s
  start : ∃ b ∈ (bytes s).head?, b ≠ 0x23 ∧ b ≠ 0x0A ∧ b ≠ 0x20

theorem plain_ofList {a : Char} {l : List Char} (he : '=' ∉ a :: l)
    (hs : a ≠ '#' ∧ a ≠ '\n' ∧ a ≠ ' ') : Plain (String.ofList (a :: l)) := by
  have hb : bytes (String.ofList (a :: l)) = (a :: l).map Char.toNat :=
    congrArg (List.map Char.toNat) String.toList_ofList
  have hn : ∀ {a b : Char}, a ≠ b → a.toNat ≠ b.toNat := fun h he => h (toNat_injective he)
  refine ⟨fun hm => ?_, ?_⟩
  · rw [hb] at hm
    obtain ⟨b, hm, hx⟩ := List.mem_map.mp hm
    exact he (toNat_injective (show b.toNat = '='.toNat from hx) ▸ hm)
  · obtain ⟨h1, h2, h3⟩ := hs
    refine ⟨a.toNat, ?_, hn h1, hn h2, hn h3⟩
    rw [hb]
    rfl

theorem ToneKey.plain (k : ToneKey) : Plain k.text := by
  cases k with
  | ga k => cases k <;> exact plain_ofList (by decide) (by decide)
  | gb k => cases k <;> exact plain_ofList (by decide) (by decide)
  | gc k => cases k <;> exact plain_ofList (by decide) (by decide)
  | g1 k => cases k <;> exact plain_ofList (by decide) (by decide)
  | g2 k => cases k <;> exact plain_ofList (by decide) (by decide)

theorem NumberKey.plain (k : NumberKey) : Plain k.text := by
  cases k with
  | timer k => cases k <;> exact plain_ofList (by decide) (by decide)
  | setting k => cases k <;> exact plain_ofList (by decide) (by decide)

theorem plain_of_mem {s : String} (hs : s ∈ keys) : Plain s := by
  rcases List.mem_append.mp hs with hs | hs
  · obtain ⟨k, -, rfl⟩ := List.mem_map.mp hs
    exact k.plain
  · obtain ⟨k, -, rfl⟩ := List.mem_map.mp hs
    exact k.plain

theorem valueOf_eq_some {s : String} {v : List Nat} :
    valueOf s line = some v ↔ cstr line = bytes s ++ 0x3D :: v := by
  rw [valueOf, List.isPrefixOf?_eq_some_iff_append_eq, List.append_assoc, List.singleton_append, eq_comm]

/-- What stands before the equals sign is one key. -/
theorem valueOf_unique {s s' : String} {v v' : List Nat} (hs : s ∈ keys) (hs' : s' ∈ keys)
    (h : valueOf s line = some v) (h' : valueOf s' line = some v') : s = s' := by
  rw [valueOf_eq_some] at h h'
  have ht : ∀ {s : String} {v : List Nat}, 0x3D ∉ bytes s →
      (bytes s ++ 0x3D :: v).takeWhile (fun b => b ≠ 0x3D) = bytes s := by
    intro s v hn
    have hp : ∀ b ∈ bytes s, decide (b ≠ 0x3D) = true := fun b hb => by
      simpa using fun he : b = 0x3D => hn (he ▸ hb)
    rw [List.takeWhile_append_of_pos hp]
    simp
  have hb : bytes s = bytes s' := by
    rw [← ht (plain_of_mem hs).equals, ← h, h', ht (plain_of_mem hs').equals]
  exact bytes_injective hb

theorem ToneKey.text_injective : Function.Injective ToneKey.text := fun k k' h =>
  List.inj_on_of_nodup_map (List.Nodup.of_append_left keys_nodup) (mem_toneKeys k) (mem_toneKeys k') h

theorem NumberKey.text_injective : Function.Injective NumberKey.text := fun k k' h =>
  List.inj_on_of_nodup_map (List.Nodup.of_append_right keys_nodup) (mem_numberKeys k)
    (mem_numberKeys k') h

theorem ToneKey.text_ne (k : ToneKey) (m : NumberKey) : k.text ≠ m.text := fun h =>
  (List.disjoint_of_nodup_append keys_nodup) (List.mem_map_of_mem (mem_toneKeys k))
    (h ▸ List.mem_map_of_mem (mem_numberKeys m))

/-- The line gives this tone this character. -/
def Assigns (k : ToneKey) (c : Nat) (line : Line) : Prop := scanChar k.text line = some c

instance (k : ToneKey) (c : Nat) (line : Line) : Decidable (Assigns k c line) := by
  unfold Assigns; exact inferInstance

/-- The number that a line sets `intvalue` to. -/
def number? (beyond : Int → Int) (line : Line) : Option Int :=
  numberKeys.findSome? fun k => scanInt beyond k.text line

/-- The line gives this timer or setting this number. -/
def Sets (beyond : Int → Int) (m : NumberKey) (n : Int) (line : Line) : Prop :=
  scanInt beyond m.text line = some n

theorem Assigns.value (h : Assigns k c line) : ∃ v, valueOf k.text line = some v := by
  obtain ⟨v, hv, -⟩ := Option.bind_eq_some_iff.mp h
  exact ⟨v, hv⟩

theorem Sets.value (h : Sets beyond m n line) : ∃ v, valueOf m.text line = some v := by
  obtain ⟨x, hx, -⟩ := Option.map_eq_some_iff.mp h
  obtain ⟨v, hv, -⟩ := Option.bind_eq_some_iff.mp hx
  exact ⟨v, hv⟩

/-- A search with one possible hit finds it. -/
theorem findSome?_only {α β : Type*} {f : α → Option β} {a : α} {b : β} {l : List α} (ha : a ∈ l)
    (hb : f a = some b) (hu : ∀ x ∈ l, ∀ y, f x = some y → x = a) :
    l.findSome? (fun x => (f x).map (x, ·)) = some (a, b) := by
  induction l with
  | nil => cases ha
  | cons x l ih =>
    cases hx : f x with
    | none =>
      have hne : a ≠ x := by
        rintro rfl
        cases hb.symm.trans hx
      rw [List.findSome?_cons_of_isNone (by simp [hx])]
      exact ih ((List.mem_cons.mp ha).resolve_left hne) fun x' hx' =>
        hu x' (List.mem_cons_of_mem _ hx')
    | some y =>
      obtain rfl := hu x List.mem_cons_self y hx
      obtain rfl := Option.some.inj (hx.symm.trans hb)
      simp [hx]

/-- A line that gives a key a value is not skipped. -/
theorem not_skipped {s : String} {v : List Nat} (hs : s ∈ keys) (h : valueOf s line = some v) :
    ¬(line.head? = some 0x23 ∨ line.head? = some 0x0A ∨ line.head? = some 0x20) := by
  obtain ⟨b, hb, h1, h2, h3⟩ := (plain_of_mem hs).start
  have hc : (cstr line).head? = some b := by
    rw [valueOf_eq_some.mp h, List.head?_append, Option.mem_def.mp hb, Option.some_or]
  have hl : line.head? = some b := by
    cases line with
    | nil => cases hc
    | cons x line =>
      by_cases hx : x = 0
      · rw [cstr, hx] at hc
        cases hc
      · rw [cstr, List.takeWhile_cons_of_pos (by simpa using hx)] at hc
        exact hc
  rw [hl]
  simp only [Option.some.injEq, not_or]
  exact ⟨h1, h2, h3⟩

theorem loadLine_assigns (h : Assigns k c line) (s : Loading) :
    loadLine beyond s line = (s.1.setTone k (toneStored s.2 c), setLowByte s.2 c) := by
  obtain ⟨v, hv⟩ := h.value
  have hf : toneKeys.findSome? (fun k => (scanChar k.text line).map (k, ·)) = some (k, c) := by
    refine findSome?_only (mem_toneKeys k) h fun k' _ c' hc' => ?_
    obtain ⟨v', hv'⟩ := Assigns.value hc'
    exact ToneKey.text_injective (valueOf_unique (mem_keys_tone k') (mem_keys_tone k) hv' hv)
  rw [loadLine, if_neg (not_skipped (mem_keys_tone k) hv), hf]

theorem Sets.noTone (h : Sets beyond m n line) (k : ToneKey) : scanChar k.text line = none := by
  obtain ⟨v, hv⟩ := h.value
  refine Option.eq_none_iff_forall_ne_some.mpr fun c hc => ?_
  obtain ⟨v', hv'⟩ := Assigns.value hc
  exact k.text_ne m (valueOf_unique (mem_keys_tone k) (mem_keys_number m) hv' hv)

theorem Sets.unique {m' : NumberKey} {n' : Int} (h : Sets beyond m n line)
    (h' : Sets beyond m' n' line) : m' = m := by
  obtain ⟨v, hv⟩ := h.value
  obtain ⟨v', hv'⟩ := h'.value
  exact NumberKey.text_injective (valueOf_unique (mem_keys_number m') (mem_keys_number m) hv' hv)

theorem loadLine_sets (h : Sets beyond m n line) (s : Loading) :
    loadLine beyond s line = (if n ≥ 0 then s.1.setNumber m n.toNat else s.1, n) := by
  obtain ⟨v, hv⟩ := h.value
  have ht : toneKeys.findSome? (fun k => (scanChar k.text line).map (k, ·)) = none :=
    List.findSome?_eq_none_iff.mpr fun k _ => by rw [h.noTone k, Option.map_none]
  have hf : numberKeys.findSome? (fun k => (scanInt beyond k.text line).map (k, ·)) = some (m, n) :=
    findSome?_only (mem_numberKeys m) h fun m' _ n' hn' => h.unique hn'
  rw [loadLine, if_neg (not_skipped (mem_keys_number m) hv), ht, hf]

theorem loadLine_none (ht : ∀ k, scanChar (ToneKey.text k) line = none)
    (hn : ∀ m, scanInt beyond (NumberKey.text m) line = none) (s : Loading) :
    loadLine beyond s line = s := by
  have hft : toneKeys.findSome? (fun k => (scanChar k.text line).map (k, ·)) = none :=
    List.findSome?_eq_none_iff.mpr fun k _ => by rw [ht k, Option.map_none]
  have hfn : numberKeys.findSome? (fun k => (scanInt beyond k.text line).map (k, ·)) = none :=
    List.findSome?_eq_none_iff.mpr fun m _ => by rw [hn m, Option.map_none]
  rw [loadLine, hft, hfn]
  exact ite_self s

/-- A line gives a tone a character, or a number to a timer or setting, or does nothing. -/
theorem line_cases (beyond : Int → Int) (line : Line) :
    (∃ k c, Assigns k c line) ∨ (∃ m n, Sets beyond m n line) ∨
      ((∀ k, scanChar (ToneKey.text k) line = none) ∧
        ∀ m, scanInt beyond (NumberKey.text m) line = none) := by
  by_cases ht : ∃ k c, Assigns k c line
  · exact .inl ht
  · by_cases hn : ∃ m n, Sets beyond m n line
    · exact .inr (.inl hn)
    · exact .inr (.inr ⟨fun k => Option.eq_none_iff_forall_ne_some.mpr fun c hc => ht ⟨k, c, hc⟩,
        fun m => Option.eq_none_iff_forall_ne_some.mpr fun n hc => hn ⟨m, n, hc⟩⟩)

theorem number?_sets (h : Sets beyond m n line) : number? beyond line = some n := by
  have hs : ∃ x, number? beyond line = some x := by
    refine Option.isSome_iff_exists.mp (List.findSome?_isSome_iff.mpr ⟨m, mem_numberKeys m, ?_⟩)
    rw [show scanInt beyond m.text line = some n from h]
    rfl
  obtain ⟨x, hx⟩ := hs
  obtain ⟨m', -, hm'⟩ := List.exists_of_findSome?_eq_some hx
  obtain rfl := h.unique hm'
  rw [hx, ← hm', show scanInt beyond m'.text line = some n from h]

theorem number?_assigns (h : Assigns k c line) : number? beyond line = none :=
  List.findSome?_eq_none_iff.mpr fun m _ => Option.eq_none_iff_forall_ne_some.mpr fun n hn => by
    have hk := Sets.noTone (m := m) (n := n) hn k
    cases hk.symm.trans h

theorem number?_none (hn : ∀ m, scanInt beyond (NumberKey.text m) line = none) :
    number? beyond line = none :=
  List.findSome?_eq_none_iff.mpr fun m _ => hn m

end Lines

section Bytes

/-- Nothing is left of a number in the upper bytes. -/
def Small (n : Int) : Prop := 0 ≤ n ∧ n < 256

instance (n : Int) : Decidable (Small n) := by unfold Small; exact inferInstance

theorem small_iff {n : Int} : Small n ↔ n / 256 = 0 := by
  unfold Small
  omega

theorem setLowByte_upper (v : Int) (c : Nat) : setLowByte v c / 256 = v / 256 := by
  unfold setLowByte
  omega

theorem toInt_bounds (beyond : Int → Int) (n : Int) :
    -2 ^ 31 ≤ toInt beyond n ∧ toInt beyond n < 2 ^ 31 := by
  unfold toInt
  split
  · next h =>
    rw [← h]
    exact ⟨Int.le_bmod (by decide), Int.bmod_lt (by decide)⟩
  · exact ⟨Int.le_bmod (by decide), Int.bmod_lt (by decide)⟩

def legalTones : List Nat := bytes "1234567890BCDEF"

theorem legal_bound {c : Nat} (h : c ∈ legalTones) : 0 < c ∧ c < 256 := by
  have hb : ∀ c ∈ legalTones, 0 < c ∧ c < 256 := by decide
  exact hb c h

theorem toneStored_of_illegal {c : Nat} (v : Int) (h0 : c ≠ 0) (hc : c ∉ legalTones) :
    toneStored v c = Tone.invalid :=
  if_neg (not_or.mpr ⟨h0, hc⟩)

/-- A character arrives alone when the upper bytes are clear. -/
theorem lowByte_alone {c : Nat} {v : Int} (hv : -2 ^ 31 ≤ v ∧ v < 2 ^ 31) (hc : c < 256) :
    uint32 (setLowByte v c) = c ↔ Small v := by
  unfold uint32 setLowByte Small
  constructor
  · intro h
    have hx : (v / 256 * 256 + (c % 256 : Nat)) % 2 ^ 32 = c := by omega
    omega
  · intro h
    omega

theorem toneStored_eq_iff {c : Nat} {v : Int} (hv : -2 ^ 31 ≤ v ∧ v < 2 ^ 31) (hc : c ∈ legalTones) :
    toneStored v c = c ↔ Small v := by
  rw [toneStored, if_pos (show isToneChar c from .inr hc)]
  exact lowByte_alone hv (legal_bound hc).2

theorem toneStored_upper {c : Nat} {v v' : Int} (h : v / 256 = v' / 256) :
    toneStored v c = toneStored v' c := by
  rw [toneStored, toneStored, setLowByte, setLowByte, h]

end Bytes

section Run

variable {beyond : Int → Int} {k : ToneKey} {m : NumberKey} {c : Nat} {n : Int} {line : Line}
  {file : List Line}

theorem assigns_ne_zero (h : Assigns k c line) : c ≠ 0 := by
  obtain ⟨v, hv, hc⟩ := Option.bind_eq_some_iff.mp h
  have hm : c ∈ cstr line := by
    rw [valueOf_eq_some.mp hv]
    exact List.mem_append_right _ (List.mem_cons_of_mem _ (List.mem_of_mem_head? hc))
  simpa using List.mem_takeWhile_imp hm

/-- The last number read so far. -/
def lastNumber (beyond : Int → Int) (file : List Line) : Int :=
  (file.filterMap (number? beyond)).getLast?.getD 0

theorem lastNumber_snoc (file : List Line) (line : Line) :
    lastNumber beyond (file ++ [line]) = (number? beyond line).getD (lastNumber beyond file) := by
  rw [lastNumber, List.filterMap_append]
  cases h : number? beyond line with
  | none => simp [h, lastNumber]
  | some n => simp [h]

/-- Characters leave the upper bytes of `intvalue` as the last number set them. -/
theorem intvalue_upper (file : List Line) (cx : R2Context) :
    (file.foldl (loadLine beyond) (cx, 0)).2 / 256 = lastNumber beyond file / 256 := by
  induction file using List.reverseRecOn with
  | nil => rfl
  | append_singleton file line ih =>
    rw [List.foldl_append, List.foldl_cons, List.foldl_nil, lastNumber_snoc]
    rcases line_cases beyond line with ⟨k, c, h⟩ | ⟨m, n, h⟩ | ⟨ht, hn⟩
    · rw [loadLine_assigns h, number?_assigns h, Option.getD_none, ← ih]
      exact setLowByte_upper _ _
    · rw [loadLine_sets h, number?_sets h]
      rfl
    · rw [loadLine_none ht hn, number?_none hn, Option.getD_none, ih]

theorem lastNumber_bounds (file : List Line) :
    -2 ^ 31 ≤ lastNumber beyond file ∧ lastNumber beyond file < 2 ^ 31 := by
  unfold lastNumber
  cases h : (file.filterMap (number? beyond)).getLast? with
  | none => decide
  | some n =>
    obtain ⟨line, -, hl⟩ := List.mem_filterMap.mp (List.mem_of_getLast? h)
    obtain ⟨m, -, hm⟩ := List.exists_of_findSome?_eq_some hl
    obtain ⟨x, -, rfl⟩ := Option.map_eq_some_iff.mp hm
    exact toInt_bounds beyond x

/-- A line that gives a tone no character leaves it. -/
theorem loadLine_tone (h : scanChar k.text line = none) (s : Loading) :
    (loadLine beyond s line).1.tone k = s.1.tone k := by
  rcases line_cases beyond line with ⟨k', c, h'⟩ | ⟨m, n, h'⟩ | ⟨ht, hn⟩
  · have hne : k' ≠ k := by
      rintro rfl
      cases h.symm.trans h'
    rw [loadLine_assigns h']
    exact s.1.tone_setTone_of_ne hne _
  · rw [loadLine_sets h']
    split
    · exact s.1.tone_setNumber k m n.toNat
    · rfl
  · rw [loadLine_none ht hn]

theorem loadLines_tone {post : List Line} (h : ∀ l ∈ post, scanChar k.text l = none) (s : Loading) :
    (post.foldl (loadLine beyond) s).1.tone k = s.1.tone k := by
  induction post generalizing s with
  | nil => rfl
  | cons line post ih =>
    rw [List.foldl_cons, ih fun l hl => h l (List.mem_cons_of_mem _ hl),
      loadLine_tone (h line List.mem_cons_self)]

/-- The line is the last one in the file that gives the tone a character. -/
structure Last (k : ToneKey) (c : Nat) (before file : List Line) : Prop where
  intro ::
  parts : ∃ line post, file = before ++ line :: post ∧ Assigns k c line ∧
    ∀ l ∈ post, scanChar k.text l = none

theorem configure_tone {before : List Line} (h : Last k c before file) (cx : R2Context) :
    (configureFromAdvancedFile beyond file cx).tone k = toneStored (lastNumber beyond before) c := by
  obtain ⟨line, post, rfl, ha, hp⟩ := h.parts
  rw [configureFromAdvancedFile, List.foldl_append, List.foldl_cons, loadLines_tone hp,
    loadLine_assigns ha]
  exact (R2Context.tone_setTone _ k _).trans (toneStored_upper (intvalue_upper before cx))

end Run

section Order

variable {beyond : Int → Int} {k : ToneKey} {m : NumberKey} {c : Nat} {n : Int} {line : Line}
  {file : List Line}

/-- Each key occurs in the file at most once. -/
def OnceEach (file : List Line) : Prop :=
  ∀ k ∈ keys, file.countP (fun line => (valueOf k line).isSome) ≤ 1

/-- Two lines with one key are the same line. -/
theorem OnceEach.eq {s : String} {line' : Line} {v v' : List Nat} (h : OnceEach file) (hs : s ∈ keys)
    (hl : line ∈ file) (hl' : line' ∈ file) (hv : valueOf s line = some v)
    (hv' : valueOf s line' = some v') : line = line' := by
  by_contra hne
  have hp : file.Perm (line :: line' :: (file.erase line).erase line') :=
    (List.perm_cons_erase hl).trans
      ((List.perm_cons_erase ((List.mem_erase_of_ne (Ne.symm hne)).mpr hl')).cons line)
  have hc := h s hs
  rw [hp.countP_eq, List.countP_cons_of_pos (by rw [hv]; rfl),
    List.countP_cons_of_pos (by rw [hv']; rfl)] at hc
  omega

theorem OnceEach.perm {file' : List Line} (h : OnceEach file) (hp : file'.Perm file) :
    OnceEach file' := by
  intro k hk
  rw [hp.countP_eq]
  exact h k hk

/-- No later line of a file gives a tone that an earlier one gave. -/
theorem OnceEach.last {before post : List Line} (h : OnceEach (before ++ line :: post))
    (ha : Assigns k c line) : Last k c before (before ++ line :: post) := by
  refine ⟨line, post, rfl, ha, fun l hl => Option.eq_none_iff_forall_ne_some.mpr fun c' hc' => ?_⟩
  obtain ⟨v, hv⟩ := ha.value
  obtain ⟨v', hv'⟩ := Assigns.value hc'
  have hc := h k.text (mem_keys_tone k)
  rw [List.countP_append, List.countP_cons_of_pos (by rw [hv]; rfl)] at hc
  have hpos : 0 < post.countP fun line => (valueOf k.text line).isSome :=
    List.countP_pos_iff.mpr ⟨l, hl, by rw [hv']; rfl⟩
  omega

/-- What a line does to the context whatever was read before it. -/
def effect (beyond : Int → Int) (cx : R2Context) (line : Line) : R2Context :=
  (loadLine beyond (cx, 0) line).1

theorem effect_assigns (h : Assigns k c line) (cx : R2Context) :
    effect beyond cx line = cx.setTone k (toneStored 0 c) := by
  rw [effect, loadLine_assigns h]

theorem effect_sets (h : Sets beyond m n line) (cx : R2Context) :
    effect beyond cx line = if n ≥ 0 then cx.setNumber m n.toNat else cx := by
  rw [effect, loadLine_sets h]

theorem effect_none (ht : ∀ k, scanChar (ToneKey.text k) line = none)
    (hn : ∀ m, scanInt beyond (NumberKey.text m) line = none) (cx : R2Context) :
    effect beyond cx line = cx := by
  rw [effect, loadLine_none ht hn]

theorem effect_comm {line' : Line} (h : OnceEach file) (hl : line ∈ file) (hl' : line' ∈ file)
    (cx : R2Context) :
    effect beyond (effect beyond cx line) line' = effect beyond (effect beyond cx line') line := by
  by_cases he : line = line'
  · rw [he]
  have hne : ∀ {s s' v v'}, s ∈ keys → valueOf s line = some v → valueOf s' line' = some v' → s ≠ s' := by
    rintro s s' v v' hs hv hv' rfl
    exact he (h.eq hs hl hl' hv hv')
  rcases line_cases beyond line with ⟨k, c, ha⟩ | ⟨m, n, ha⟩ | ⟨ht, hn⟩
  · obtain ⟨v, hv⟩ := ha.value
    rcases line_cases beyond line' with ⟨k', c', ha'⟩ | ⟨m', n', ha'⟩ | ⟨ht', hn'⟩
    · obtain ⟨v', hv'⟩ := ha'.value
      simp only [effect_assigns ha, effect_assigns ha']
      exact cx.setTone_comm (fun hk => hne (mem_keys_tone k) hv hv' (congrArg ToneKey.text hk)) _ _
    · simp only [effect_assigns ha, effect_sets ha']
      split
      · exact cx.setTone_setNumber k _ m' _
      · rfl
    · simp only [effect_none ht' hn']
  · obtain ⟨v, hv⟩ := ha.value
    rcases line_cases beyond line' with ⟨k', c', ha'⟩ | ⟨m', n', ha'⟩ | ⟨ht', hn'⟩
    · simp only [effect_sets ha, effect_assigns ha']
      split
      · exact (cx.setTone_setNumber k' _ m _).symm
      · rfl
    · obtain ⟨v', hv'⟩ := ha'.value
      simp only [effect_sets ha, effect_sets ha']
      split <;> split
      · exact cx.setNumber_comm (fun hk => hne (mem_keys_number m) hv hv' (congrArg NumberKey.text hk)) _ _
      · rfl
      · rfl
      · rfl
    · simp only [effect_none ht' hn']
  · simp only [effect_none ht hn]

theorem loadLine_effect (s : Loading) (h : Small s.2 ∨ ∀ k c, Assigns k c line → c ∉ legalTones) :
    (loadLine beyond s line).1 = effect beyond s.1 line := by
  rcases line_cases beyond line with ⟨k, c, ha⟩ | ⟨m, n, ha⟩ | ⟨ht, hn⟩
  · have ht : toneStored s.2 c = toneStored 0 c := by
      rcases h with h | h
      · exact toneStored_upper (small_iff.mp h)
      · rw [toneStored_of_illegal _ (assigns_ne_zero ha) (h k c ha),
          toneStored_of_illegal _ (assigns_ne_zero ha) (h k c ha)]
    rw [loadLine_assigns ha, effect_assigns ha, ht]
  · rw [loadLine_sets ha, effect_sets ha]
  · rw [loadLine_none ht hn, effect_none ht hn]

theorem loadLine_small {s : Loading} (h : ∀ m n, Sets beyond m n line → Small n)
    (hs : Small s.2) : Small (loadLine beyond s line).2 := by
  rcases line_cases beyond line with ⟨k, c, ha⟩ | ⟨m, n, ha⟩ | ⟨ht, hn⟩
  · rw [loadLine_assigns ha]
    exact small_iff.mpr ((setLowByte_upper s.2 c).trans (small_iff.mp hs))
  · rw [loadLine_sets ha]
    exact h m n ha
  · rw [loadLine_none ht hn]
    exact hs

/-- Either nothing is stored but `OR2_MF_TONE_INVALID`, or no number has an upper byte. -/
def Tame (beyond : Int → Int) (file : List Line) : Prop :=
  (∀ line ∈ file, ∀ k c, Assigns k c line → c ∉ legalTones) ∨
    ∀ line ∈ file, ∀ m n, Sets beyond m n line → Small n

theorem effects_of_illegal (h : ∀ line ∈ file, ∀ k c, Assigns k c line → c ∉ legalTones)
    (s : Loading) : (file.foldl (loadLine beyond) s).1 = file.foldl (effect beyond) s.1 := by
  induction file generalizing s with
  | nil => rfl
  | cons line file ih =>
    rw [List.foldl_cons, List.foldl_cons, ih fun l hl => h l (List.mem_cons_of_mem _ hl),
      loadLine_effect s (.inr (h line List.mem_cons_self))]

theorem effects_of_small (h : ∀ line ∈ file, ∀ m n, Sets beyond m n line → Small n)
    (s : Loading) (hs : Small s.2) :
    (file.foldl (loadLine beyond) s).1 = file.foldl (effect beyond) s.1 := by
  induction file generalizing s with
  | nil => rfl
  | cons line file ih =>
    have hl := h line List.mem_cons_self
    rw [List.foldl_cons, List.foldl_cons, ← loadLine_effect s (.inl hs)]
    exact ih (fun l hl => h l (List.mem_cons_of_mem _ hl)) _ (loadLine_small hl hs)

theorem Tame.effects (h : Tame beyond file) (cx : R2Context) :
    configureFromAdvancedFile beyond file cx = file.foldl (effect beyond) cx := by
  rcases h with h | h
  · exact effects_of_illegal h (cx, 0)
  · exact effects_of_small h (cx, 0) (small_iff.mpr rfl)

theorem Tame.perm {file' : List Line} (h : Tame beyond file) (hp : file'.Perm file) :
    Tame beyond file' :=
  h.imp (fun h line hl => h line (hp.subset hl)) fun h line hl => h line (hp.subset hl)

/-- A number with an upper byte before a legal character, and after it. -/
theorem not_tame (hu : OnceEach file) (h : ¬Tame beyond file) (cx : R2Context) :
    ∃ file', file'.Perm file ∧
      configureFromAdvancedFile beyond file' cx ≠ configureFromAdvancedFile beyond file cx := by
  simp only [Tame, not_or, not_forall, not_not] at h
  obtain ⟨⟨l, hl, k, c, ha, hc⟩, l', hl', m, n, hn, hs⟩ := h
  have hne : l' ≠ l := by
    rintro rfl
    cases (hn.noTone k).symm.trans ha
  have hp := (List.perm_cons_erase hl).trans
    ((List.perm_cons_erase ((List.mem_erase_of_ne hne).mpr hl')).cons l)
  let rest := (file.erase l).erase l'
  have hp₁ : (l :: l' :: rest).Perm file := hp.symm
  have hp₂ : (l' :: l :: rest).Perm file := (List.Perm.swap l l' rest).trans hp₁
  have hb : -2 ^ 31 ≤ n ∧ n < 2 ^ 31 := by
    obtain ⟨x, -, rfl⟩ := Option.map_eq_some_iff.mp hn
    exact toInt_bounds beyond x
  have hl₁ : Last k c [] (l :: l' :: rest) := OnceEach.last (hu.perm hp₁) ha
  have hl₂ : Last k c [l'] (l' :: l :: rest) := OnceEach.last (hu.perm hp₂) ha
  have ht₁ : (configureFromAdvancedFile beyond (l :: l' :: rest) cx).tone k = c := by
    rw [configure_tone hl₁]
    exact (toneStored_eq_iff (lastNumber_bounds []) hc).mpr (small_iff.mpr rfl)
  have ht₂ : (configureFromAdvancedFile beyond (l' :: l :: rest) cx).tone k ≠ c := by
    rw [configure_tone hl₂]
    have hx : lastNumber beyond [l'] = n := by
      rw [lastNumber, List.filterMap_cons_some (number?_sets hn)]
      rfl
    rw [hx]
    exact fun he => hs ((toneStored_eq_iff hb hc).mp he)
  by_cases he : configureFromAdvancedFile beyond (l :: l' :: rest) cx =
      configureFromAdvancedFile beyond file cx
  · exact ⟨_, hp₂, fun he' => ht₂ (he'.trans he.symm ▸ ht₁)⟩
  · exact ⟨_, hp₁, he⟩

/-- The order of the lines does not matter. -/
def OrderFree (beyond : Int → Int) (file : List Line) (cx : R2Context) : Prop :=
  ∀ file' : List Line, file'.Perm file →
    configureFromAdvancedFile beyond file' cx = configureFromAdvancedFile beyond file cx

theorem orderFree_iff (hu : OnceEach file) (cx : R2Context) :
    OrderFree beyond file cx ↔ Tame beyond file := by
  constructor
  · intro h
    by_contra hn
    obtain ⟨file', hp, hne⟩ := not_tame hu hn cx
    exact hne (h file' hp)
  · intro h file' hp
    rw [(h.perm hp).effects, h.effects]
    exact hp.foldl_eq' (fun x hx y hy z =>
      (effect_comm hu (hp.subset hx) (hp.subset hy) z)) cx

/-- Every tone that lines assign ends as the last of them says. -/
def TonesLegal (beyond : Int → Int) (file : List Line) (cx : R2Context) : Prop :=
  ∀ k c before, Last k c before file →
    (configureFromAdvancedFile beyond file cx).tone k = if c ∈ legalTones then c else Tone.invalid

theorem tonesLegal_iff (file : List Line) (cx : R2Context) :
    TonesLegal beyond file cx ↔
      ∀ k c before, Last k c before file → c ∈ legalTones → Small (lastNumber beyond before) := by
  constructor
  · intro h k c before hl hc
    have ht := h k c before hl
    rw [configure_tone hl, if_pos hc] at ht
    exact (toneStored_eq_iff (lastNumber_bounds before) hc).mp ht
  · intro h k c before hl
    rw [configure_tone hl]
    split
    · next hc => exact (toneStored_eq_iff (lastNumber_bounds before) hc).mpr (h k c before hl hc)
    · next hc =>
      obtain ⟨line, -, -, ha, -⟩ := hl.parts
      exact toneStored_of_illegal _ (assigns_ne_zero ha) hc

/-- `intvalue` keeps the upper bytes of the last number, and a tone is stored with them. -/
theorem advanced_file_iff (beyond : Int → Int) (file : List Line) (cx : R2Context) :
    (TonesLegal beyond file cx ∧ (OnceEach file → OrderFree beyond file cx)) ↔
      (∀ k c before, Last k c before file → c ∈ legalTones → Small (lastNumber beyond before)) ∧
        (OnceEach file → Tame beyond file) := by
  rw [tonesLegal_iff]
  refine and_congr_right fun _ => ⟨fun h hu => ?_, fun h hu => ?_⟩
  · exact (orderFree_iff hu cx).mp (h hu)
  · exact (orderFree_iff hu cx).mpr (h hu)

end Order

def seizeLine : Line := bytes "timers.r2_seize=8000\n"

def categoryLine : Line := bytes "mf_ga_tones.request_category=5\n"

theorem seizeLine_sets : Sets id (.timer .r2Seize) 8000 seizeLine := by
  unfold Sets
  decide

theorem category_after_seize :
    ¬TonesLegal id [seizeLine, categoryLine] (configureItu 10 10 R2Context.zero) := by
  intro h
  have hl : Last (.ga .requestCategory) 0x35 [seizeLine] [seizeLine, categoryLine] :=
    ⟨categoryLine, [], rfl, by decide, fun _ hm => absurd hm List.not_mem_nil⟩
  have ht := h _ _ _ hl
  have hn : lastNumber id [seizeLine] = 8000 := by
    rw [lastNumber, List.filterMap_cons_some (number?_sets seizeLine_sets)]
    rfl
  rw [configure_tone hl, hn] at ht
  exact absurd ht (by decide)

end OpenR2
