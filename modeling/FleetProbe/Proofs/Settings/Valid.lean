import FleetProbe.Proofs.Number.Range
import FleetProbe.Proofs.Settings.Accepted
/-!
What settings keep to once they were loaded. Every reader lets through only what lies in its range,
and the defaults lie in it too, so that nothing behind the loading has to look again.
-/

namespace FleetProbe

namespace Catalog.Wait

/-- The digits at the front of a duration. -/
def digits (t : Text) : List Nat :=
  (Text.trimBy Text.isBlank t.points).takeWhile fun p => (Text.digitValue? p).isSome

/-- What stands behind the digits. -/
def unitText (t : Text) : Text :=
  ⟨(Text.trimBy Text.isBlank t.points).dropWhile fun p => (Text.digitValue? p).isSome⟩

/-- The number of a duration is too large, in whatever unit. -/
def Huge (t : Text) : Prop :=
  (unit? (unitText t)).isSome ∧
    ∃ n, Text.natural? (digits t) = .ok n ∧ Number.Binary64.tooLarge ≤ n

theorem seconds_tooLarge_iff (t : Text) : seconds t = .error .tooLarge ↔ Huge t := by
  unfold Huge
  unfold seconds
  dsimp only
  rw [← digits, ← unitText]
  cases unit? (unitText t) with
  | none => simp
  | some unit =>
    cases hn : Text.natural? (digits t) with
    | error e => cases e <;> simp
    | ok n =>
      have hnone := Quantity.ofInt?_eq_none_iff n
      rw [Int.natAbs_natCast] at hnone
      simp only [Option.isSome_some, true_and, Except.ok.injEq, exists_eq_left', ← hnone]
      cases (Quantity.ofInt? n : Option Float) with
      | none => simp
      | some x => simp

end Catalog.Wait

namespace Settings

theorem between_ok {least most n : Int} {v : Value} (h : between least most v = .ok n) :
    least ≤ n ∧ n ≤ most := by
  obtain ⟨m, -, h⟩ := bind_eq_ok h
  split at h
  · cases h
  · split at h
    · cases h
    · cases h
      omega

theorem positive_ok {n : Int} {v : Value} (h : positive v = .ok n) : 0 < n := by
  obtain ⟨m, -, h⟩ := bind_eq_ok h
  split at h
  · next hm =>
    cases h
    exact hm
  · cases h

theorem positiveTime_ok {x : Float} {v : Value} (h : positiveTime v = .ok x) : 0 < x := by
  obtain ⟨y, -, h⟩ := bind_eq_ok h
  split at h
  · next hy =>
    cases h
    exact hy
  · cases h

theorem time_ok {x : Float} {v : Value} (h : time v = .ok x) : 0 ≤ x := by
  obtain ⟨y, -, h⟩ := bind_eq_ok h
  split at h
  · next hy =>
    cases h
    exact hy
  · cases h

theorem choice_ok {words : List Text} {why t : Text} {v : Value}
    (h : choice words why v = .ok t) : t ∈ words := by
  obtain ⟨u, -, h⟩ := bind_eq_ok h
  split at h
  · next hu =>
    cases h
    exact List.contains_iff_mem.mp hu
  · cases h

theorem nonBlank_ok {t : Text} {v : Value} (h : nonBlank v = .ok t) :
    ¬ t.points.all Text.isBlank = true := by
  obtain ⟨u, -, h⟩ := bind_eq_ok h
  split at h
  · cases h
  · next hu =>
    cases h
    exact hu

/-- A setting that may be absent is absent, or was read. -/
theorem optional_ok {β : Type} {read : Value → Except Problem β} {v : Value} {b : Option β}
    (h : optional read v = .ok b) : b = none ∨ ∃ c, b = some c ∧ read v = .ok c := by
  unfold optional at h
  split at h
  · cases h
    exact .inl rfl
  · cases hread : read v with
    | error e =>
      rw [hread] at h
      cases h
    | ok c =>
      rw [hread] at h
      cases h
      exact .inr ⟨c, rfl, rfl⟩

/-- A duration that is let through, and is not beyond all numbers, is one. -/
theorem wait_ok {t : Text} {v : Value} (h : wait v = .ok t) (hhuge : isHugeWait v = false) :
    ∃ x, Catalog.Wait.seconds t = .ok x := by
  obtain ⟨u, hu, h⟩ := bind_eq_ok h
  unfold isHugeWait at hhuge
  rw [hu] at hhuge
  cases hx : Catalog.Wait.seconds u with
  | error e =>
    rw [hx] at h
    cases e with
    | malformed => cases h
    | tooManyDigits => cases h
    | tooLarge => simp [hx] at hhuge
  | ok x =>
    rw [hx] at h
    cases h
    exact ⟨x, hx⟩

/-- What a setting satisfies when its default and everything that is read for it do. -/
theorem Layers.get_satisfies {β : Type} {layers : Layers} {name : String} {standard b : β}
    {read : Value → Except Problem β} {P : β → Prop} (h : layers.get name read standard = .ok b)
    (hstandard : P standard) (hread : ∀ v, read v = .ok b → P b) : P b := by
  obtain rfl | ⟨v, hv⟩ := Layers.get_ok h
  · exact hstandard
  · exact hread v hv

/-- Every setting is within its range. -/
structure Valid (s : Settings) : Prop where
  catalogPort : 1 ≤ s.catalogPort ∧ s.catalogPort ≤ 65535
  catalogScheme : s.catalogScheme ∈ (["http", "https"] : List Text)
  catalogWait : ∃ x, Catalog.Wait.seconds s.catalogWait = .ok x
  tag : ¬ s.tag.points.all Text.isBlank = true
  pollInterval : 0 < s.pollInterval
  pollCapacity : ∀ n, s.pollCapacity = some n → 0 < n
  probeInterval : 0 < s.probeInterval
  commandTimeout : 0 < s.commandTimeout
  connectTimeout : 0 < s.connectTimeout
  reconnectBackoff : 0 ≤ s.reconnectBackoff
  probeKey : ¬ s.probeKey.points.any Text.isSurrogate = true ∧
    1 ≤ s.probeKey.length ∧ s.probeKey.length ≤ 250
  probeTtl : 0 ≤ s.probeTtl
  endpointPort : 1 ≤ s.endpointPort ∧ s.endpointPort ≤ 65535
  logFormat : s.logFormat ∈ (["json", "text"] : List Text)

theorem Valid.bucketCapacity_pos {s : Settings} (h : s.Valid) : 0 < s.bucketCapacity := by
  unfold bucketCapacity
  cases hcapacity : s.pollCapacity with
  | none => exact h.pollInterval
  | some capacity => exact h.pollCapacity capacity hcapacity

theorem Accepted.catalogWait_ok {layers : Layers} {s : Settings} (h : Accepted layers s)
    (hhuge : (layers.find? "consul_wait").any isHugeWait = false) :
    ∃ x, Catalog.Wait.seconds s.catalogWait = .ok x := by
  have hread := h.catalogWait
  unfold readCatalogWait Layers.get at hread
  cases hv : layers.find? "consul_wait" with
  | none =>
    rw [hv] at hread
    rw [← Except.ok.inj hread]
    exact ⟨_, rfl⟩
  | some v =>
    rw [hv] at hread hhuge
    exact wait_ok hread hhuge

theorem Accepted.tag_ok {layers : Layers} {s : Settings} (h : Accepted layers s) :
    ¬ s.tag.points.all Text.isBlank = true := by
  have hread := h.tag
  unfold readTag at hread
  split at hread
  · cases hread
  · exact nonBlank_ok hread

theorem Accepted.pollCapacity_ok {layers : Layers} {s : Settings} (h : Accepted layers s) (n : Int)
    (hn : s.pollCapacity = some n) : 0 < n := by
  refine Layers.get_satisfies (P := fun c => c = some n → 0 < n) h.pollCapacity ?_ ?_ hn
  · intro hnone
    cases hnone
  · intro v hread hsome
    obtain hnone | ⟨c, hc, hread⟩ := optional_ok hread
    · rw [hnone] at hsome
      cases hsome
    · rw [hc] at hsome
      cases hsome
      exact positive_ok hread

theorem Accepted.valid {layers : Layers} {s : Settings} (h : Accepted layers s)
    (hhuge : (layers.find? "consul_wait").any isHugeWait = false) : s.Valid where
  catalogPort := Layers.get_satisfies (P := fun n => 1 ≤ n ∧ n ≤ 65535) h.catalogPort (by decide)
    fun _ => between_ok
  catalogScheme := Layers.get_satisfies h.catalogScheme (by decide) fun _ => choice_ok
  catalogWait := h.catalogWait_ok hhuge
  tag := h.tag_ok
  pollInterval := Layers.get_satisfies h.pollInterval (by decide) fun _ => positive_ok
  pollCapacity := h.pollCapacity_ok
  probeInterval := Layers.get_satisfies h.probeInterval (by decide) fun _ => positiveTime_ok
  commandTimeout := Layers.get_satisfies h.commandTimeout (by decide) fun _ => positiveTime_ok
  connectTimeout := Layers.get_satisfies h.connectTimeout (by decide) fun _ => positiveTime_ok
  reconnectBackoff := Layers.get_satisfies h.reconnectBackoff (by decide) fun _ => time_ok
  probeKey := Layers.get_satisfies
    (P := fun t => ¬ t.points.any Text.isSurrogate = true ∧ 1 ≤ t.length ∧ t.length ≤ 250)
    h.probeKey (by decide) fun _ => boundedText_ok
  probeTtl := Layers.get_satisfies h.probeTtl (by decide) fun _ => atLeast_ok
  endpointPort := Layers.get_satisfies (P := fun n => 1 ≤ n ∧ n ≤ 65535) h.endpointPort (by decide)
    fun _ => between_ok
  logFormat := Layers.get_satisfies h.logFormat (by decide) fun _ => choice_ok

theorem read_valid {layers : Layers} {s : Settings} (h : read layers = .ok s) : s.Valid := by
  have haccepted := read_accepted h
  unfold read at h
  split at h
  · cases h
  · next hhuge => exact haccepted.valid (by simpa using hhuge)

theorem load_valid {start : Surroundings} {path : Option Text} {given : List (Text × Value)}
    {s : Settings} (h : load start path given = .ok s) : s.Valid := by
  obtain ⟨layers, hread⟩ := load_read h
  exact read_valid hread

end Settings

end FleetProbe
