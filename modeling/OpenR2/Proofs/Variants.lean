import OpenR2.Context

namespace OpenR2

/-- The contexts a user can build: a new one, and then any of these setters. -/
inductive Configured : R2Context → Prop where
  | new (variant : Variant) (maxAni maxDnis : Int) (cx : R2Context)
      (h : contextNew variant maxAni maxDnis = some cx) : Configured cx
  | aniFirst (v : Int) (cx : R2Context) (h : Configured cx) : Configured (setAniFirst v cx)
  | skipCategory (v : Int) (cx : R2Context) (h : Configured cx) :
      Configured (setSkipCategoryRequest v cx)
  | immediateAccept (v : Int) (cx : R2Context) (h : Configured cx) :
      Configured (setImmediateAccept v cx)
  | maxAni (v : Int) (cx : R2Context) (h : Configured cx) : Configured (setMaxAni v cx)
  | maxDnis (v : Int) (cx : R2Context) (h : Configured cx) : Configured (setMaxDnis v cx)

/-- The variants of a new context. -/
theorem contextNew_some {variant : Variant} {maxAni maxDnis : Int} {cx : R2Context}
    (h : contextNew variant maxAni maxDnis = some cx) :
    ∃ e ∈ r2variants, e.id = variant ∧
      cx = e.config (configureItu maxAni maxDnis { R2Context.zero with variant := variant }) := by
  simp only [contextNew, configureContext, Option.map_eq_some_iff] at h
  obtain ⟨e, he, rfl⟩ := h
  exact ⟨e, List.mem_of_find?_eq_some he, by simpa using List.find?_some he, rfl⟩

/-- What the tables say about the collection of the ANI. Only China fixes its
length, and only China can start with it. -/
structure R2Context.AniPlan (cx : R2Context) : Prop where
  mfc : cx.Mfc
  threshold : cx.mfThreshold = 0
  bound : cx.forceUseMaxAni = false → cx.maxAni < maxAniBuffer
  early : cx.aniCanComeFirst = cx.forceUseMaxAni
  forced : cx.forceUseMaxAni = true → cx.g1Tones.noMoreDnisAvailable = 0
  ended : cx.g1Tones.noMoreDnisAvailable.isDigit = false

theorem clamp_lt (v : Int) : (if v ≥ (maxAniBuffer : Int) then (maxAniBuffer : Int) - 1 else v) <
    maxAniBuffer := by
  split <;> omega

theorem Configured.aniPlan {cx : R2Context} (h : Configured cx) : cx.AniPlan := by
  induction h with
  | new variant a d cx h =>
    obtain ⟨e, he, -, rfl⟩ := contextNew_some h
    have hb := clamp_lt a
    simp only [r2variants, List.mem_cons, List.not_mem_nil, or_false] at he
    rcases he with rfl | rfl | rfl | rfl | rfl | rfl | rfl | rfl | rfl | rfl
    all_goals
      exact ⟨⟨rfl, rfl⟩, rfl, by first | exact fun _ => hb | exact nofun, rfl,
        by first | exact fun _ => rfl | exact nofun, rfl⟩
  | maxAni v cx _ ih =>
    exact ⟨⟨ih.mfc.1, ih.mfc.2⟩, ih.threshold, fun _ => clamp_lt v, ih.early, ih.forced, ih.ended⟩
  | _ v cx _ ih =>
    exact ⟨⟨ih.mfc.1, ih.mfc.2⟩, ih.threshold, ih.bound, ih.early, ih.forced, ih.ended⟩

/-- The tables of every variant, without metering pulses and persistence checks. -/
structure R2Context.Plain (cx : R2Context) : Prop where
  mfc : cx.Mfc
  signals : cx.casSignals = standardCasSignals
  r2Bits : cx.casR2Bits = 0xC
  nonr2Bits : cx.casNonr2Bits = 0x1 ∨ cx.casNonr2Bits = 0x3
  metering : cx.timers.r2MeteringPulse = 0
  persistence : cx.timers.casPersistenceCheck = 0
  single : cx.doubleAnswer = false

/-- A signal as it goes on the line. -/
def R2Context.pattern (cx : R2Context) (s : CasSignal) : Nat := cx.casSignals s ||| cx.casNonr2Bits

/-- What is read of a pattern is its signal. -/
theorem R2Context.Plain.read {cx : R2Context} (h : cx.Plain) (s : CasSignal) :
    cx.pattern s &&& cx.casR2Bits = standardCasSignals s := by
  rw [R2Context.pattern, h.signals, h.r2Bits]
  rcases h.nonr2Bits with hn | hn <;> rw [hn] <;> cases s <;> decide

theorem Configured.plain {cx : R2Context} (h : Configured cx)
    (hm : cx.timers.r2MeteringPulse = 0) : cx.Plain := by
  have hmfc := h.aniPlan.mfc
  induction h with
  | new variant a d cx h =>
    obtain ⟨e, he, -, rfl⟩ := contextNew_some h
    simp only [r2variants, List.mem_cons, List.not_mem_nil, or_false] at he
    rcases he with rfl | rfl | rfl | rfl | rfl | rfl | rfl | rfl | rfl | rfl
    all_goals
      exact ⟨hmfc, rfl, rfl, by first | exact .inl rfl | exact .inr rfl, hm, rfl, rfl⟩
  | _ v cx h ih =>
    have ih := ih hm h.aniPlan.mfc
    exact ⟨hmfc, ih.signals, ih.r2Bits, ih.nonr2Bits, ih.metering, ih.persistence, ih.single⟩

/-- A context with the tones of a variant. Its other settings are any. -/
def R2Context.TonesOf (variant : Variant) (cx : R2Context) : Prop :=
  ∃ maxAni maxDnis cx', contextNew variant maxAni maxDnis = some cx' ∧ cx.gaTones = cx'.gaTones ∧
    cx.gbTones = cx'.gbTones ∧ cx.gcTones = cx'.gcTones ∧ cx.g1Tones = cx'.g1Tones ∧
      cx.g2Tones = cx'.g2Tones

/-- The tables of a variant do not depend on what else is configured. -/
def VariantEntry.tables (e : VariantEntry) : R2Context := e.config (configureItu 0 0 R2Context.zero)

/-- The entry of a variant. -/
def variantEntry (variant : Variant) : Option VariantEntry := r2variants.find? fun e => e.id == variant

theorem variantEntry_mem {variant : Variant} {e : VariantEntry} (h : variantEntry variant = some e) :
    e ∈ r2variants ∧ e.id = variant :=
  ⟨List.mem_of_find?_eq_some h, by simpa using List.find?_some h⟩

theorem R2Context.TonesOf.entry {variant : Variant} {cx : R2Context} (h : cx.TonesOf variant) :
    ∃ e, variantEntry variant = some e ∧ cx.gaTones = e.tables.gaTones ∧
      cx.gbTones = e.tables.gbTones ∧ cx.gcTones = e.tables.gcTones ∧
        cx.g1Tones = e.tables.g1Tones ∧ cx.g2Tones = e.tables.g2Tones := by
  obtain ⟨a, d, cx', hn, hga, hgb, hgc, hg1, hg2⟩ := h
  simp only [contextNew, configureContext, Option.map_eq_some_iff] at hn
  obtain ⟨e, he, rfl⟩ := hn
  have hm := (variantEntry_mem he).1
  refine ⟨e, he, hga.trans ?_, hgb.trans ?_, hgc.trans ?_, hg1.trans ?_, hg2.trans ?_⟩
  all_goals
    simp only [r2variants, List.mem_cons, List.not_mem_nil, or_false] at hm
    rcases hm with rfl | rfl | rfl | rfl | rfl | rfl | rfl | rfl | rfl | rfl
  all_goals rfl

end OpenR2
