import Mathlib.Logic.Function.Basic
import Mathlib.Logic.Relation

namespace Link

/-- The two ends of a link. -/
inductive Side where
  | left | right
  deriving DecidableEq, Repr

namespace Side

def peer : Side → Side
  | left => right
  | right => left

@[simp] theorem peer_peer (i : Side) : i.peer.peer = i := by cases i <;> rfl

@[simp] theorem peer_ne (i : Side) : i.peer ≠ i := by cases i <;> decide

@[simp] theorem ne_peer (i : Side) : i ≠ i.peer := by cases i <;> decide

theorem eq_or_peer (i j : Side) : j = i ∨ j = i.peer := by cases i <;> cases j <;> decide

end Side

/-- A party at each end, the messages under way to it, first in first out, and all
that it has done. -/
structure Net (σ μ o : Type*) where
  party : Side → σ
  inbox : Side → List μ
  did : Side → List o

namespace Net

variable {σ μ o : Type*} (msg : o → Option μ)

/-- A party acts: what it sends goes to the end of the other's inbox. -/
def act (i : Side) (r : σ × List o) (s : Net σ μ o) : Net σ μ o where
  party := Function.update s.party i r.1
  inbox := Function.update s.inbox i.peer (s.inbox i.peer ++ r.2.filterMap msg)
  did := Function.update s.did i (s.did i ++ r.2)

/-- The first message leaves the inbox. -/
def take (i : Side) (rest : List μ) (s : Net σ μ o) : Net σ μ o :=
  { s with inbox := Function.update s.inbox i rest }

variable (i : Side) (r : σ × List o) (s : Net σ μ o)

@[simp] theorem act_party : (s.act msg i r).party i = r.1 := by simp [act]

@[simp] theorem act_party_peer : (s.act msg i r).party i.peer = s.party i.peer := by simp [act]

@[simp] theorem act_inbox : (s.act msg i r).inbox i = s.inbox i := by simp [act]

@[simp] theorem act_inbox_peer :
    (s.act msg i r).inbox i.peer = s.inbox i.peer ++ r.2.filterMap msg := by simp [act]

@[simp] theorem act_did : (s.act msg i r).did i = s.did i ++ r.2 := by simp [act]

@[simp] theorem act_did_peer : (s.act msg i r).did i.peer = s.did i.peer := by simp [act]

@[simp] theorem take_party (rest : List μ) : (s.take i rest).party = s.party := rfl

@[simp] theorem take_did (rest : List μ) : (s.take i rest).did = s.did := rfl

@[simp] theorem take_inbox (rest : List μ) : (s.take i rest).inbox i = rest := by simp [take]

@[simp] theorem take_inbox_peer (rest : List μ) :
    (s.take i rest).inbox i.peer = s.inbox i.peer := by simp [take]

end Net

section Within

variable {σ : Type*} {step : σ → σ → Prop} {p q : σ → Prop}

/-- Every run gets to such a state in at most so many steps, and none gets stuck
before. -/
inductive Within (step : σ → σ → Prop) (p : σ → Prop) : Nat → σ → Prop where
  | now {n : Nat} {s : σ} (h : p s) : Within step p n s
  | later {n : Nat} {s : σ} (hn : ∃ t, step s t) (h : ∀ t, step s t → Within step p n t) :
      Within step p (n + 1) s

namespace Within

theorem mono {n m : Nat} {s : σ} (h : Within step p n s) (hm : n ≤ m) : Within step p m s := by
  induction h generalizing m with
  | now h => exact .now h
  | later hn _ ih =>
    obtain ⟨m, rfl⟩ := Nat.exists_eq_add_of_lt hm
    exact .later hn fun t ht => ih t ht (by omega)

/-- One stage after the other. -/
theorem bind {n m : Nat} {s : σ} (h : Within step p n s)
    (hq : ∀ s, p s → Within step q m s) : Within step q (n + m) s := by
  induction h with
  | now h => exact (hq _ h).mono (Nat.le_add_left _ _)
  | @later n s hn _ ih =>
    rw [Nat.add_right_comm]
    exact .later hn ih

/-- A measure bounds the runs that keep an invariant. -/
theorem of_measure {inv : Nat → σ → Prop}
    (hs : ∀ n s t, inv n s → step s t → ∃ m < n, inv m t)
    (hp : ∀ n s, inv n s → p s ∨ ∃ t, step s t)
    {n : Nat} {s : σ} (h : inv n s) : Within step p n s := by
  induction n using Nat.strongRecOn generalizing s with
  | ind n ih =>
    rcases hp n s h with hs' | ⟨t, ht⟩
    · exact .now hs'
    · obtain ⟨m, hm, -⟩ := hs n s t h ht
      obtain ⟨n, rfl⟩ := Nat.exists_eq_succ_of_ne_zero (Nat.ne_zero_of_lt hm)
      refine .later ⟨t, ht⟩ fun u hu => ?_
      obtain ⟨k, hk, hi⟩ := hs _ s u h hu
      exact (ih k hk hi).mono (Nat.le_of_lt_succ hk)

/-- So does one that only the steps before the end keep. -/
theorem of_decrease {inv : Nat → σ → Prop}
    (hs : ∀ n s t, inv n s → step s t → p t ∨ ∃ m < n, inv m t)
    (hp : ∀ n s, inv n s → ∃ t, step s t)
    {n : Nat} {s : σ} (h : inv n s) : Within step p (n + 1) s := by
  induction n using Nat.strongRecOn generalizing s with
  | ind n ih =>
    refine .later (hp n s h) fun t ht => ?_
    rcases hs n s t h ht with hend | ⟨m, hm, hi⟩
    · exact .now hend
    · exact (ih m hm hi).mono hm

end Within

end Within

end Link
