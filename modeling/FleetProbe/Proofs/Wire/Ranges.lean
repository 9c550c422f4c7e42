import FleetProbe.Wire.Payload
/-!
Which commands can be written: those whose numbers all fit their fields. A payload that can be
stored under one number can be stored, and its key read back, under any.
-/

namespace FleetProbe.Wire

theorem writeFields?_isSome (fields : List (Nat × Int)) :
    (writeFields? fields).isSome = true ↔
      ∀ f ∈ fields, 0 ≤ f.2 ∧ f.2 < (Nat.pow 256 f.1 : Nat) := by
  induction fields with
  | nil => simp [writeFields?]
  | cons f fields ih =>
    obtain ⟨width, n⟩ := f
    rw [List.forall_mem_cons, ← ih, writeFields?]
    by_cases hfits : 0 ≤ n ∧ n < (Nat.pow 256 width : Nat)
    · rw [writeField?, if_pos hfits]
      cases writeFields? fields with
      | none => simp
      | some bs => simpa using hfits
    · rw [writeField?, if_neg hfits]
      simp only [Option.isSome_none, Bool.false_eq_true, false_iff]
      exact fun h => hfits h.1

theorem Command.encode_ok_iff (c : Command) : (∃ bs, c.encode = .ok bs) ↔
    ∀ f ∈ c.header.fields, 0 ≤ f.2 ∧ f.2 < (Nat.pow 256 f.1 : Nat) := by
  rw [← writeFields?_isSome, Command.encode, Command.encode?, RequestHeader.encode?]
  cases writeFields? c.header.fields with
  | none => simp
  | some bs => simp

theorem Command.set_encode_iff (key value : Bytes) (ttl : Nat) (serial : Int) :
    (∃ bs, (Command.set key value ttl serial).encode = .ok bs) ↔
      key.length < 0x10000 ∧ key.length + value.length + setExtraLength < 0x100000000 ∧
        0 ≤ serial ∧ serial < 0x100000000 := by
  rw [encode_ok_iff]
  simp [header, RequestHeader.fields, RequestHeader.bodyLength, setExtraLength, requestMagic]
  omega

theorem Command.get_encode_iff (key : Bytes) (serial : Int) :
    (∃ bs, (Command.get key serial).encode = .ok bs) ↔
      key.length < 0x10000 ∧ 0 ≤ serial ∧ serial < 0x100000000 := by
  rw [encode_ok_iff]
  simp [header, RequestHeader.fields, RequestHeader.bodyLength, requestMagic]
  omega

/-- The command that stores a payload can be written. -/
def Payload.Writable (p : Payload) : Prop := ∃ c bs, p.set 0 = .ok c ∧ c.encode = .ok bs

theorem Command.ttl?_eq_some {n : Int} {ttl : Nat} (h : Command.ttl? n = some ttl) :
    0 ≤ n ∧ n < 0x10000000000000000 := by
  unfold Command.ttl? at h
  split at h
  · next hfits => exact hfits
  · cases h

/-- A payload can be written when its texts can, and its numbers fit their fields. -/
theorem Payload.writable_iff (p : Payload) : p.Writable ↔
    ∃ key value ttl, p.key.bytes? = some key ∧ p.value.bytes? = some value ∧
      p.ttl.bind Command.ttl? = some ttl ∧ key.length < 0x10000 ∧
        key.length + value.length + Command.setExtraLength < 0x100000000 := by
  constructor
  · rintro ⟨c, bs, hset, hbytes⟩
    unfold Payload.set at hset
    split at hset
    · next key value hkey hvalue =>
      split at hset
      · next ttl httl =>
        cases hset
        have hfits := (Command.set_encode_iff key value ttl 0).mp ⟨bs, hbytes⟩
        exact ⟨key, value, ttl, hkey, hvalue, httl, hfits.1, hfits.2.1⟩
      · cases hset
    · cases hset
  · rintro ⟨key, value, ttl, hkey, hvalue, httl, hshort, hwhole⟩
    have hset : p.set 0 = .ok (.set key value ttl 0) := by simp [Payload.set, hkey, hvalue, httl]
    obtain ⟨bs, hbs⟩ := (Command.set_encode_iff key value ttl 0).mpr
      ⟨hshort, hwhole, by decide, by decide⟩
    exact ⟨_, bs, hset, hbs⟩

/-- Commands of a payload differ in their number only, and any of 32 bits will do. -/
theorem Payload.Writable.commands {p : Payload} (h : p.Writable) {serial : Nat}
    (hserial : serial < 0x100000000) :
    (∃ c bs, p.set serial = .ok c ∧ c.encode = .ok bs) ∧
      ∃ c bs, p.get serial = .ok c ∧ c.encode = .ok bs := by
  obtain ⟨key, value, ttl, hkey, hvalue, httl, hshort, hwhole⟩ := p.writable_iff.mp h
  have hnumber : (0 : Int) ≤ serial ∧ (serial : Int) < 0x100000000 := by omega
  obtain ⟨bs, hbs⟩ :=
    (Command.set_encode_iff key value ttl serial).mpr ⟨hshort, hwhole, hnumber⟩
  obtain ⟨bs', hbs'⟩ := (Command.get_encode_iff key serial).mpr ⟨hshort, hnumber⟩
  refine ⟨⟨.set key value ttl serial, bs, ?_, hbs⟩, .get key serial, bs', ?_, hbs'⟩
  · simp [Payload.set, hkey, hvalue, httl]
  · simp [Payload.get, hkey]

end FleetProbe.Wire
