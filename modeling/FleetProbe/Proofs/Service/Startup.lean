import FleetProbe.Proofs.Service.Steps
import FleetProbe.Proofs.Settings.Valid
import FleetProbe.Service.Start
/-!
Whether the pace of the polls is decided at the start. A service is refused when a poll takes more
than its bucket holds. One that was made never fails for its pace: what the bucket can hold and what
a poll takes stay as they are in every run.
-/

namespace FleetProbe

theorem Value.digits?_isSome_iff (n : Int) :
    (digits? n).isSome ↔ n.natAbs < 10 ^ Text.maxIntegerDigits := by
  have hlength : (toString n.natAbs).length = (Nat.toDigits 10 n.natAbs).length := by
    rw [Nat.toString_eq_ofList_toDigits, String.length_ofList]
  have hdigits := Nat.length_toDigits_le_iff (b := 10) (n := n.natAbs) (k := Text.maxIntegerDigits)
    (by decide) (by decide)
  unfold digits?
  dsimp only
  rw [hlength]
  split
  · next h => simp [← hdigits, not_le.mpr h]
  · next h => simp [← hdigits, not_lt.mp h]

variable {α : Type} [Quantity α]

namespace Watch

/-- A step of the loop after which the bucket can still hold what a poll takes, and which does not
end for the pace. -/
structure Turn.Affords (turn : Turn α) : Prop where
  bucket : turn.watch.bucket.Serves (.whole turn.watch.cost)
  paced : ∀ f, turn.stand ≠ .over (.error (.pacing f))

variable {w : Watch α}

theorem Draws.affords {now : α} {turn : Turn α} (h : w.Draws now turn)
    (hw : w.bucket.Serves (.whole w.cost)) : turn.Affords := by
  cases h with
  | @poll v hbucket hcost hpolled hkept hstand =>
    have hv : v.bucket.Serves (.whole v.cost) := by
      rw [hbucket, hcost]
      exact hw
    obtain ⟨bucket, wait, hserves, hwatch, hwait⟩ := poll_affords hv now
    refine ⟨?_, by simp [hstand, hwait]⟩
    rw [hpolled, hkept, hwatch, ← hcost]
    exact hserves
  | rest hbucket hcost hstand hpaced =>
    refine ⟨?_, fun f hf => ?_⟩
    · rw [hbucket, hcost]
      exact hw
    · rw [hstand] at hf
      cases hf
      exact hpaced f rfl

theorem wake_affords (h : w.bucket.Serves (.whole w.cost)) (now : α) : (w.wake now).Affords :=
  ⟨h.set _ now, by simp [wake, query]⟩

end Watch

namespace Service

/-- The bucket can hold what a poll takes, and the loop has not failed for its pace. -/
structure Solvent (s : Service α) : Prop where
  affords : s.watch.bucket.Serves (.whole s.watch.cost)
  paced : ∀ instant f, s.loop ≠ .failed instant (.pacing f)

theorem Begets.affords {s : Service α} {now : α} {e : Event} {turn : Watch.Turn α}
    (h : s.Begets now e turn) (hs : s.Solvent) : turn.Affords := by
  obtain hdraws | ⟨_, -, -, rfl⟩ := h.cases
  · exact hdraws.affords hs.affords
  · exact Watch.wake_affords hs.affords now

theorem Took.solvent {s : Service α} {turn : Watch.Turn α} (h : Took turn s)
    (hturn : turn.Affords) : s.Solvent := by
  refine ⟨?_, fun instant f hf => hturn.paced f (h.failed instant _ hf)⟩
  rw [h.bucket, h.cost]
  exact hturn.bucket

theorem Solvent.of_keeps {s t : Service α} (h : s.Solvent) (hst : Keeps s t) : t.Solvent := by
  refine ⟨by rw [hst.bucket, hst.cost]; exact h.affords, fun instant f hfailed => ?_⟩
  obtain hsame | hover := hst.loop
  · exact h.paced instant f (hsame.symm.trans hfailed)
  · cases hover.symm.trans hfailed

theorem Solvent.step {s : Service α} (hs : s.Upright) (h : s.Solvent) (now : α) (e : Event) :
    (s.step now e).service.Solvent := by
  cases step_does hs now e with
  | aside _ _ _ hkeeps => exact h.of_keeps hkeeps
  | down _ _ hkeeps => exact h.of_keeps hkeeps
  | asks _ _ _ hservice _ =>
    rw [hservice]
    exact ⟨h.affords, by simp [ask]⟩
  | takes hbegets _ _ hservice _ =>
    rw [hservice]
    exact (take_took now _ _).solvent (hbegets.affords h)

theorem run_solvent {s : Service α} (hs : s.Upright) (h : s.Solvent) (events : List (α × Event)) :
    (s.run events).Solvent := by
  induction events generalizing s with
  | nil => exact h
  | cons e events ih => exact ih (hs.step e.1 e.2) (h.step hs e.1 e.2)

end Service

namespace Settings

open Number.Binary64

/-- A poll takes more than the bucket is said to hold. -/
def Overdrawn (s : Settings) : Prop :=
  ∃ capacity, s.pollCapacity = some capacity ∧ capacity < s.pollInterval

theorem overdrawn_iff (s : Settings) : s.Overdrawn ↔ s.bucketCapacity < s.tokenCost := by
  unfold Overdrawn bucketCapacity tokenCost
  cases s.pollCapacity with
  | none => simp
  | some capacity => simp

/-- The pace is decided at the start: the service is refused for it, or it is made and its loop
never fails for it. -/
structure PacingDecided (s : Settings) (now : Float) : Prop where
  refused : ∀ capacity, s.pollCapacity = some capacity → capacity < s.pollInterval →
    Service.ofSettings s now = .error (.pacing s.pollInterval capacity)
  made : ¬ s.Overdrawn → ∃ service, Service.ofSettings s now = .ok service ∧
    ∀ (events : List (Float × Service.Event)) (instant : Float) (f : Bucket.Fault Float),
      (service.run events).loop ≠ .failed instant (.pacing f)

theorem Valid.watchOf_cases {s : Settings} (h : s.Valid) (now : Float) :
    (tooLarge ≤ s.bucketCapacity.natAbs ∧ Service.watchOf s now = .error .hugeBucket) ∨
      s.bucketCapacity.natAbs < tooLarge ∧ ∃ watch : Watch Float, Service.watchOf s now = .ok watch ∧
        (s.tokenCost ≤ s.bucketCapacity → watch.bucket.Serves (.whole watch.cost)) := by
  have hcapacity := h.bucketCapacity_pos
  have hinterval := h.pollInterval
  have hnumber := Amount.real?_whole_isSome_iff s.bucketCapacity
  have hnonneg : Amount.lt (α := Float) (.whole s.bucketCapacity) (.whole 0) = false :=
    decide_eq_false (by omega)
  have hrate : Amount.le (α := Float) (.whole Service.quantum) (.whole 0) = false := by decide
  have hone : (Amount.whole Service.quantum : Amount Float).real?.isSome = true := by decide
  unfold Service.watchOf Bucket.create
  rw [hnonneg, hrate]
  simp only [Bool.false_eq_true, if_false]
  cases hfull : (Amount.whole s.bucketCapacity : Amount Float).real? with
  | none =>
    rw [hfull] at hnumber
    exact .inl ⟨by simpa using hnumber, rfl⟩
  | some full =>
    rw [hfull] at hnumber
    have hless : s.bucketCapacity.natAbs < tooLarge := hnumber.mp rfl
    refine .inr ⟨hless, _, rfl, fun hcost => ⟨?_, rfl, ?_, ?_⟩⟩
    · exact decide_eq_false (not_lt.mpr hcost)
    · exact hone
    · have hfewer : s.tokenCost.natAbs ≤ s.bucketCapacity.natAbs := by
        unfold tokenCost at *
        omega
      exact (Amount.real?_whole_isSome_iff _).mpr (hfewer.trans_lt hless)

theorem ofSettings_overdrawn {s : Settings} (h : s.Overdrawn) (now : Float) :
    Service.ofSettings s now = .error (Service.overdrawn s.tokenCost s.bucketCapacity) :=
  if_pos ((overdrawn_iff s).mp h)

/-- Both numbers can be told if the greater one can. -/
theorem Valid.overdrawn_told {s : Settings} (hs : s.Valid) (h : s.Overdrawn) :
    Service.overdrawn s.tokenCost s.bucketCapacity = .pacing s.tokenCost s.bucketCapacity ↔
      s.pollInterval < 10 ^ Text.maxIntegerDigits := by
  have hless := (overdrawn_iff s).mp h
  have hcapacity := hs.bucketCapacity_pos
  have hcost : (Value.digits? s.tokenCost).isSome ↔ s.pollInterval < 10 ^ Text.maxIntegerDigits := by
    rw [Value.digits?_isSome_iff, tokenCost]
    have hinterval := hs.pollInterval
    zify
    rw [abs_of_pos hinterval]
  have hsmaller (htold : (Value.digits? s.tokenCost).isSome) :
      (Value.digits? s.bucketCapacity).isSome := by
    rw [Value.digits?_isSome_iff] at htold ⊢
    omega
  rw [← hcost]
  unfold Service.overdrawn
  cases htold : (Value.digits? s.tokenCost).isSome with
  | false => simp
  | true => simp [hsmaller htold]

theorem probeConfig?_isSome_iff (s : Settings) :
    s.probeConfig?.isSome ↔ ∃ value, s.probeValue.encode? = some value := by
  rw [probeConfig?, Option.isSome_map, Option.isSome_iff_exists]

/-- A service is made of loaded settings unless the pace, the capacity or the value of the probes is
in the way. -/
theorem Valid.ofSettings_ok_iff {s : Settings} (hs : s.Valid) (now : Float) :
    (∃ service, Service.ofSettings s now = .ok service) ↔ ¬ s.Overdrawn ∧
      s.bucketCapacity.natAbs < tooLarge ∧ ∃ value, s.probeValue.encode? = some value := by
  obtain ⟨x, hwait⟩ := hs.catalogWait
  unfold Service.ofSettings
  rw [overdrawn_iff, ← probeConfig?_isSome_iff]
  split
  · next hpace => simp [hpace]
  · next hpace =>
    simp only [hwait, hpace]
    obtain ⟨hlarge, hwatch⟩ | ⟨hless, watch, hwatch, -⟩ := hs.watchOf_cases now
    · simp [hwatch, not_lt.mpr hlarge]
    · simp only [hwatch, hless]
      cases s.probeConfig? with
      | none => simp
      | some config => simp

theorem Valid.ofSettings_solvent {s : Settings} (hs : s.Valid) {now : Float}
    {service : Service Float} (h : Service.ofSettings s now = .ok service) :
    service.Upright ∧ service.Solvent := by
  obtain ⟨x, hwait⟩ := hs.catalogWait
  unfold Service.ofSettings at h
  split at h
  · cases h
  · next hpace =>
    simp only [hwait] at h
    obtain ⟨-, hwatch⟩ | ⟨-, watch, hwatch, hserves⟩ := hs.watchOf_cases now
    · simp [hwatch] at h
    · simp only [hwatch] at h
      cases hconfig : s.probeConfig? with
      | none =>
        rw [hconfig] at h
        cases h
      | some config =>
        rw [hconfig] at h
        cases h
        exact ⟨.inr (by simp), hserves (not_lt.mp hpace), by simp⟩

/-- **When the pace is decided at the start.** With settings that were loaded it is, exactly when the
numbers are within some bounds that nobody checks: a poll interval that is refused must not have too
many digits to be told, and where none is refused the capacity of the bucket must be within the range
of doubles and the value of the probes must be encodable. -/
theorem pacing_decided_iff (start : Surroundings) (path : Option Text)
    (given : List (Text × Value)) (s : Settings) (hload : load start path given = .ok s)
    (now : Float) : s.PacingDecided now ↔
      (s.Overdrawn → s.pollInterval < 10 ^ Text.maxIntegerDigits) ∧
      (¬ s.Overdrawn → s.bucketCapacity.natAbs < tooLarge ∧
        ∃ value, s.probeValue.encode? = some value) := by
  have hs := load_valid hload
  have hcapacity {capacity : Int} (h : s.pollCapacity = some capacity) :
      s.bucketCapacity = capacity := by rw [bucketCapacity, h, Option.getD_some]
  constructor
  · intro hdecided
    refine ⟨fun hover => ?_, fun hpace => ?_⟩
    · obtain ⟨capacity, hsome, hless⟩ := hover
      have hrefused := hdecided.refused capacity hsome hless
      rw [ofSettings_overdrawn ⟨capacity, hsome, hless⟩, ← hcapacity hsome] at hrefused
      exact (hs.overdrawn_told ⟨capacity, hsome, hless⟩).mp (Except.error.inj hrefused)
    · obtain ⟨service, hmade, -⟩ := hdecided.made hpace
      exact ((hs.ofSettings_ok_iff now).mp ⟨service, hmade⟩).2
  · rintro ⟨htold, hfits⟩
    refine ⟨fun capacity hsome hless => ?_, fun hpace => ?_⟩
    · have hover : s.Overdrawn := ⟨capacity, hsome, hless⟩
      rw [ofSettings_overdrawn hover, (hs.overdrawn_told hover).mpr (htold hover), hcapacity hsome]
      rfl
    · obtain ⟨service, hmade⟩ := (hs.ofSettings_ok_iff now).mpr ⟨hpace, hfits hpace⟩
      obtain ⟨hupright, hsolvent⟩ := hs.ofSettings_solvent hmade
      exact ⟨service, hmade, fun events => (Service.run_solvent hupright hsolvent events).paced⟩

/-- Settings of a tag and a poll interval, and nothing else. -/
def polling (interval : Int) : Except LoadFault Settings :=
  load {} none [("services_tag", .text "m"), ("poll_interval", .int interval)]

theorem polling_ok (interval : Int)
    (h : ((polling interval).toOption.map fun s => (s.pollInterval, s.pollCapacity, s.probeValue)) =
      some (interval, none, ("mempoke" : Text))) :
    ∃ s, polling interval = .ok s ∧ ¬ s.Overdrawn ∧ s.bucketCapacity = interval ∧
      s.probeValue = "mempoke" := by
  cases hs : polling interval with
  | error e =>
    rw [hs] at h
    cases h
  | ok s =>
    rw [hs] at h
    obtain ⟨hinterval, hrest⟩ := Prod.mk.inj (Option.some.inj h)
    obtain ⟨hcapacity, hvalue⟩ := Prod.mk.inj hrest
    refine ⟨s, rfl, ?_, ?_, hvalue⟩
    · rintro ⟨capacity, hsome, -⟩
      rw [hcapacity] at hsome
      cases hsome
    · rw [bucketCapacity, hcapacity, ← hinterval]
      rfl

theorem polling_decided : ∃ s, polling 30 = .ok s ∧ s.PacingDecided 0 := by
  obtain ⟨s, hload, hpace, hcapacity, hvalue⟩ := polling_ok 30 (by decide +kernel)
  have hdecided := pacing_decided_iff {} none _ s hload 0
  refine ⟨s, hload, hdecided.mpr ⟨fun hover => absurd hover hpace, fun _ => ?_⟩⟩
  rw [hcapacity, hvalue]
  exact ⟨by decide +kernel, _, rfl⟩

/-- An interval beyond all doubles is accepted, and there is no service for it. -/
theorem polling_undecided :
    ¬ ∀ (start : Surroundings) (path : Option Text) (given : List (Text × Value)) (s : Settings),
      load start path given = .ok s → ∀ now, s.PacingDecided now := by
  intro h
  obtain ⟨s, hload, hpace, hcapacity, -⟩ := polling_ok (10 ^ 400) (by decide +kernel)
  obtain ⟨service, hmade, -⟩ := (h {} none _ s hload 0).made hpace
  obtain ⟨-, hfits, -⟩ := ((load_valid hload).ofSettings_ok_iff 0).mp ⟨service, hmade⟩
  rw [hcapacity] at hfits
  exact absurd hfits (by decide +kernel)

end Settings

end FleetProbe
