import FleetProbe.Proofs.Probe.Survival
import FleetProbe.Proofs.Settings.Accepted
/-!
Whether nodes can be probed with the settings that were loaded. The key is short enough for its
field, whatever its characters are, and a value of less than some length fits behind it. But a time
to live is only kept from being negative: one beyond 64 bits is let through, and then no probe can
be sent.
-/

namespace FleetProbe

/-- A text without surrogates is encoded in four bytes a character at most. -/
theorem Text.encode?_bounded {t : Text} (h : ¬ t.points.any isSurrogate = true) :
    ∃ bs, t.encode? = some bs ∧ bs.length ≤ 4 * t.length := by
  have hpoint (p : Nat) : (encodePoint p).length ≤ 4 := by
    unfold encodePoint
    split_ifs <;> simp
  have hpoints (ps : List Nat) : (ps.flatMap encodePoint).length ≤ 4 * ps.length := by
    induction ps with
    | nil => simp
    | cons p ps ih =>
      have hp := hpoint p
      rw [List.flatMap_cons, List.length_append, List.length_cons]
      omega
  exact ⟨_, if_neg h, hpoints t.points⟩

namespace Settings

open Probe Task

/-- The commands of a probe can be built and written under every number, and no task crashes as
long as nothing but conditions of the system meets it. -/
def Probeable (s : Settings) : Prop :=
  ∃ config, s.probeConfig? = some config ∧
    (∀ serial : Nat, serial < 0x100000000 →
      (∃ c bs, config.payload.set serial = .ok c ∧ c.encode = .ok bs) ∧
        ∃ c bs, config.payload.get serial = .ok c ∧ c.encode = .ok bs) ∧
    ∀ (id : Nat) (node : Catalog.Node) (events : List (Float × Event)),
      (∀ x ∈ events, x.2.Brings fun f => f.isSystem = true) →
        ∀ crash, ((fresh id node config).run events).task.fate? ≠ some (.crashed crash)

theorem probeConfig?_eq {s : Settings} {value : Bytes} (h : s.probeValue.encode? = some value) :
    s.probeConfig? = some
      { interval := .within (.real s.probeInterval)
        timeout := .within (.real s.commandTimeout)
        connectTimeout := .within (.real s.connectTimeout)
        backoff := .within (.real s.reconnectBackoff)
        payload := ⟨.text s.probeKey, .bytes value, some s.probeTtl⟩ } := by
  rw [probeConfig?, h]
  rfl

theorem Accepted.probeKey_fits {layers : Layers} {s : Settings} (h : Accepted layers s) :
    ∃ key, s.probeKey.encode? = some key ∧ key.length ≤ 1000 := by
  obtain hstandard | ⟨v, hread⟩ := Layers.get_ok h.probeKey
  · rw [hstandard]
    exact ⟨_, rfl, by decide⟩
  · obtain ⟨hplain, -, hmost⟩ := boundedText_ok hread
    obtain ⟨key, hkey, hlength⟩ := Text.encode?_bounded hplain
    refine ⟨key, hkey, ?_⟩
    omega

theorem Accepted.probeTtl_nonneg {layers : Layers} {s : Settings} (h : Accepted layers s) :
    0 ≤ s.probeTtl := by
  obtain hstandard | ⟨v, hread⟩ := Layers.get_ok h.probeTtl
  · rw [hstandard]
    decide
  · exact atLeast_ok hread

/-- A task whose configuration is proper does not crash of itself. -/
theorem not_crashed {config : Config Float} (hproper : config.Proper) (id : Nat)
    (node : Catalog.Node) {events : List (Float × Event)}
    (hsystem : ∀ x ∈ events, x.2.Brings fun f => f.isSystem = true) (crash : Crash) :
    ((fresh id node config).run events).task.fate? ≠ some (.crashed crash) := by
  intro hfate
  have hlives := fresh_lives (Q := fun e => ∀ crash, e ≠ .crashed crash) id node
    (.inr ⟨hproper, fun _ hf => hf⟩) hsystem (fun _ _ _ => by simp) (fun _ _ _ => by simp)
  obtain hwaits | hbegun := hlives.life
  · exact hwaits.fate _ hfate crash rfl
  · exact (hbegun.spared.fate _ hfate).2 crash rfl

theorem Probeable.fits {s : Settings} (h : s.Probeable) :
    s.probeTtl < 0x10000000000000000 ∧ ∃ value, s.probeValue.encode? = some value := by
  obtain ⟨config, hconfig, hcommands, -⟩ := h
  obtain ⟨value, hencoded, hpayload⟩ := Option.map_eq_some_iff.mp hconfig
  obtain ⟨⟨c, bs, hset, hbytes⟩, -⟩ := hcommands 0 (by decide)
  obtain ⟨-, -, ttl, -, -, httl, -⟩ :=
    (Wire.Payload.writable_iff config.payload).mp ⟨c, bs, hset, hbytes⟩
  rw [← hpayload] at httl
  exact ⟨(Wire.Command.ttl?_eq_some httl).2, value, hencoded⟩

/-- **Settings that were accepted can be probed with exactly when the time to live fits.** Let the
value be of less than 2 ^ 32 - 2 ^ 16 bytes. Then every command of a probe can be built and written,
and no task crashes of itself, if and only if the time to live has no more than 64 bits and the value
can be encoded at all. -/
theorem probeable_iff (start : Surroundings) (path : Option Text) (given : List (Text × Value))
    (s : Settings) (hload : load start path given = .ok s)
    (hvalue : ∀ value, s.probeValue.encode? = some value →
      value.length < 0x100000000 - 0x10000) :
    s.Probeable ↔ s.probeTtl < 0x10000000000000000 ∧ ∃ value, s.probeValue.encode? = some value := by
  obtain ⟨layers, haccepted⟩ := load_accepted hload
  constructor
  · exact Probeable.fits
  · rintro ⟨httl, value, hencoded⟩
    obtain ⟨key, hkey, hshort⟩ := haccepted.probeKey_fits
    have hnonneg := haccepted.probeTtl_nonneg
    have hlength := hvalue value hencoded
    have hwritable : Wire.Payload.Writable ⟨.text s.probeKey, .bytes value, some s.probeTtl⟩ := by
      refine (Wire.Payload.writable_iff _).mpr ⟨key, value, s.probeTtl.toNat, hkey, rfl, ?_, ?_, ?_⟩
      · exact if_pos ⟨hnonneg, httl⟩
      · omega
      · rw [Wire.Command.setExtraLength]
        omega
    have hnumber (x : Float) : (TimeLimit.within (.real x)).IsNumber := ⟨x, rfl⟩
    refine ⟨_, probeConfig?_eq hencoded, fun serial hserial => hwritable.commands hserial, ?_⟩
    intro id node events hsystem crash
    exact not_crashed ⟨hnumber _, hnumber _, hnumber _, hnumber _, hwritable⟩ id node hsystem crash

/-- Settings of a tag and a time to live, and nothing else. -/
def living (ttl : Int) : Except LoadFault Settings :=
  load {} none [("services_tag", .text "m"), ("probe_ttl", .int ttl)]

theorem living_ok (ttl : Int)
    (h : ((living ttl).toOption.map fun s => (s.probeTtl, s.probeValue)) =
      some (ttl, ("mempoke" : Text))) :
    ∃ s, living ttl = .ok s ∧ s.probeTtl = ttl ∧
      ∀ value, s.probeValue.encode? = some value → value.length < 0x100000000 - 0x10000 := by
  cases hs : living ttl with
  | error e =>
    rw [hs] at h
    cases h
  | ok s =>
    rw [hs] at h
    obtain ⟨httl, hvalue⟩ := Prod.mk.inj (Option.some.inj h)
    refine ⟨s, rfl, httl, fun value hencoded => ?_⟩
    rw [hvalue] at hencoded
    cases hencoded
    decide

/-- The longest time to live that fits. -/
theorem living_probeable : ∃ s, living 0xffffffffffffffff = .ok s ∧
    (∀ value, s.probeValue.encode? = some value → value.length < 0x100000000 - 0x10000) ∧
    s.probeTtl < 0x10000000000000000 ∧ s.Probeable := by
  obtain ⟨s, hload, httl, hvalue⟩ := living_ok 0xffffffffffffffff (by decide +kernel)
  have hfits : s.probeTtl < 0x10000000000000000 := by
    rw [httl]
    decide
  have hencodes : ∃ value, s.probeValue.encode? = some value := by
    have hsome : ((living 0xffffffffffffffff).toOption.bind fun s => s.probeValue.encode?).isSome =
        true := by
      decide +kernel
    rw [hload] at hsome
    exact Option.isSome_iff_exists.mp hsome
  exact ⟨s, hload, hvalue, hfits, (probeable_iff {} none _ s hload hvalue).mpr ⟨hfits, hencodes⟩⟩

/-- The time to live after that is accepted, and nothing can be probed with it. -/
theorem living_not_probeable :
    ¬ ∀ (start : Surroundings) (path : Option Text) (given : List (Text × Value)) (s : Settings),
      load start path given = .ok s →
      (∀ value, s.probeValue.encode? = some value → value.length < 0x100000000 - 0x10000) →
      s.Probeable := by
  intro h
  obtain ⟨s, hload, httl, hvalue⟩ := living_ok 0x10000000000000000 (by decide +kernel)
  have hbound := (h {} none _ s hload hvalue).fits.1
  rw [httl] at hbound
  exact absurd hbound (by decide)

end Settings

end FleetProbe
