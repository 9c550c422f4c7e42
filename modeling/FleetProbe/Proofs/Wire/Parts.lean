import FleetProbe.Proofs.Wire.Framing
/-!
What the parts of a frame are made of. Where the lengths in the header agree, the parts are the
body of the frame and nothing else. Where they do not, the parts reach past the end of the frame
that was measured, and what they hold depends on the bytes that happen to follow it.
-/

namespace FleetProbe.Wire

/-- Extras and key leave room for a value. -/
def ResponseHeader.Consistent (h : ResponseHeader) : Prop :=
  h.keyLength + h.extraLength ≤ h.bodyLength

instance (h : ResponseHeader) : Decidable h.Consistent :=
  inferInstanceAs (Decidable (h.keyLength + h.extraLength ≤ h.bodyLength))

theorem ResponseHeader.consistent_iff (h : ResponseHeader) : h.Consistent ↔ 0 ≤ h.valueLength := by
  rw [Consistent, valueLength]
  omega

namespace Frame

/-- The parts are as long as the header says, and side by side they are these bytes. -/
structure Spells (f : Frame) (body : Bytes) : Prop where
  extra : f.extra.length = f.header.extraLength
  key : f.key.length = f.header.keyLength
  value : (f.value.length : Int) = f.header.valueLength
  body : f.extra ++ f.key ++ f.value = body

theorem Spells.consistent {f : Frame} {body : Bytes} (h : f.Spells body) : f.header.Consistent := by
  rw [ResponseHeader.consistent_iff, ← h.value]
  exact Int.natCast_nonneg _

theorem take_parts (bs : Bytes) (a b c : Nat) (h : a + b ≤ c) :
    bs.take a ++ (bs.drop a).take b ++ ((bs.drop a).drop b).take (c - (a + b)) = bs.take c := by
  rw [List.drop_drop, ← List.take_add, ← List.take_add, Nat.add_sub_cancel' h]

theorem decode_spells {bs : Bytes} {n : Nat} (h : extent bs = .ok n)
    (hc : (decode bs).header.Consistent) :
    (decode bs).Spells ((bs.drop headerSize).take (n - headerSize)) := by
  obtain ⟨rfl, hn⟩ := extent_bounds h
  have hbody := decode_bodyLength bs
  rw [ResponseHeader.Consistent] at hc
  simp only [decode] at hbody hc
  -- From here on it is three lengths of a header and the bytes behind it.
  have hl : bodyLength bs ≤ (bs.drop headerSize).length := by
    rw [List.length_drop]
    omega
  rw [Nat.add_sub_cancel_left, ← hbody]
  rw [← hbody] at hl
  simp only [decode, Nat.add_assoc]
  simp only [← List.drop_drop]
  generalize bs.drop headerSize = body at hl
  generalize ResponseHeader.ofBytes (bs.take headerSize) = hd at hc hl
  refine ⟨?_, ?_, ?_, take_parts body hd.extraLength hd.keyLength _ (by omega)⟩
  · simp only [List.length_take]
    omega
  · simp only [List.length_take, List.length_drop]
    omega
  · simp only [List.length_take, List.length_drop, ResponseHeader.valueLength]
    omega

/-- A frame whose lengths agree does not depend on what follows it. -/
theorem decode_take_append {bs : Bytes} {n : Nat} (more : Bytes) (h : extent bs = .ok n)
    (hc : (decode bs).header.Consistent) : decode (bs.take n ++ more) = decode bs := by
  have ht := extent_take n h
  rw [if_pos (Nat.le_refl n)] at ht
  have hown : Alike (decode bs) (decode (bs.take n)) := by
    have ha := decode_append (bs.drop n) ht
    rwa [List.take_append_drop] at ha
  have hother : Alike (decode (bs.take n ++ more)) (decode bs) :=
    (decode_append more ht).trans hown.symm
  exact hother.2 hc

/-- Extras and key together take what the header says they do, as far as there are bytes. -/
theorem length_parts (bs : Bytes) :
    (decode bs).extra.length + (decode bs).key.length =
      min ((decode bs).header.extraLength + (decode bs).header.keyLength)
        (bs.length - headerSize) := by
  simp only [decode, List.length_take, List.length_drop]
  omega

/-- A frame whose lengths do not agree takes in the first byte behind it. -/
theorem decode_concat_ne {bs : Bytes} {n : Nat} (b : UInt8) (h : extent bs = .ok n)
    (hc : ¬ (decode bs).header.Consistent) (hn : bs.length = n) :
    decode (bs ++ [b]) ≠ decode bs := by
  intro he
  obtain ⟨hsize, -⟩ := extent_bounds h
  have hparts := length_parts bs
  have hmore := length_parts (bs ++ [b])
  rw [he, List.length_append, List.length_singleton, hparts] at hmore
  rw [ResponseHeader.Consistent, decode_bodyLength] at hc
  omega

theorem drop_take_append (buffer more : Bytes) (offset n : Nat) (h : offset ≤ buffer.length) :
    (buffer.take (offset + n) ++ more).drop offset = (buffer.drop offset).take n ++ more := by
  have hl : offset ≤ (buffer.take (offset + n)).length := by
    rw [List.length_take]
    omega
  rw [List.drop_append_of_le_length hl, List.drop_take, Nat.add_sub_cancel_left]

/-- **A frame is its own bytes where its lengths agree, and only there.** A complete frame can be
parsed at any offset; what comes out is the body of the frame, part by part, exactly when extras
and key fit into it, and it is the same whatever follows the frame in exactly these cases. -/
theorem parse_exact_iff (buffer : Bytes) (offset n : Nat) (h : check buffer offset = .ok n) :
    ∃ f, parse buffer offset = .ok f ∧
      (f.Spells (Bytes.slice buffer (offset + headerSize : Nat) (offset + n : Nat)) ↔
        f.header.Consistent) ∧
      ((∀ more, parse (buffer.take (offset + n) ++ more) offset = .ok f) ↔
        f.header.Consistent) := by
  rw [check_eq] at h
  have ht := extent_take n h
  rw [if_pos (Nat.le_refl n)] at ht
  obtain ⟨hn, hle⟩ := extent_bounds h
  have hsize : headerSize ≤ (buffer.drop offset).length := by omega
  have hoffset : offset ≤ buffer.length := by
    rw [List.length_drop] at hsize
    simp only [headerSize] at hsize
    omega
  have hparse (more : Bytes) : parse (buffer.take (offset + n) ++ more) offset =
      .ok (decode ((buffer.drop offset).take n ++ more)) := by
    have hd := drop_take_append buffer more offset n hoffset
    rw [parse_eq, hd]
    rw [hd, List.length_append, List.length_take]
    omega
  refine ⟨decode (buffer.drop offset), parse_eq buffer offset hsize, ⟨Spells.consistent, ?_⟩, ?_, ?_⟩
  · intro hc
    have hs := decode_spells h hc
    rw [List.drop_drop] at hs
    rw [Bytes.slice_nat, Nat.add_sub_add_left]
    exact hs
  · -- Nothing behind the frame and one byte behind it already give two answers.
    intro hall
    by_contra hc
    have hown : decode ((buffer.drop offset).take n) = decode (buffer.drop offset) := by
      have ha := hparse []
      rw [hall, List.append_nil] at ha
      exact (Except.ok.inj ha).symm
    rw [← hown] at hc
    have hl : ((buffer.drop offset).take n).length = n := by
      rw [List.length_take]
      omega
    have ha := hparse [0]
    rw [hall, ← hown] at ha
    exact decode_concat_ne 0 ht hc hl (Except.ok.inj ha).symm
  · intro hc more
    rw [hparse, decode_take_append more h hc]

/-- Two frames side by side: four bytes of extras with a value of one byte, then with one of
eight. -/
def twoFrames : Bytes :=
  [0x81, 0, 0, 0, 4, 0, 0, 0, 0, 0, 0, 5, 0, 0, 0, 0, 0, 0, 0, 0, 0, 0, 0, 1, 0, 0, 0, 0, 0x30,
    0x81, 0, 0, 0, 4, 0, 0, 0, 0, 0, 0, 12, 0, 0, 0, 0, 0, 0, 0, 0, 0, 0, 0, 1, 0, 0, 0, 0, 0x54,
    0x65, 0x73, 0x74, 0x4e, 0x69, 0x63, 0x6f]

theorem twoFrames_second_exact : check twoFrames (29 : Nat) = .ok 36 ∧
    ∃ f, parse twoFrames (29 : Nat) = .ok f ∧
      f.Spells [0, 0, 0, 0, 0x54, 0x65, 0x73, 0x74, 0x4e, 0x69, 0x63, 0x6f] ∧
      ∀ more, parse (twoFrames.take 65 ++ more) (29 : Nat) = .ok f := by
  have hcheck : check twoFrames (29 : Nat) = .ok 36 := by decide
  obtain ⟨f, hparse, hspells, hsame⟩ := parse_exact_iff twoFrames 29 36 hcheck
  have hconsistent : f.header.Consistent := by
    rw [parse_eq twoFrames 29 (by decide)] at hparse
    obtain rfl := Except.ok.inj hparse
    decide +kernel
  exact ⟨hcheck, f, hparse, hspells.mpr hconsistent, hsame.mpr hconsistent⟩

/-- A frame that has no body, with a key of four bytes in its header, and four bytes behind it. -/
def overreach : Bytes :=
  [0x81, 0, 0, 4, 0, 0, 0, 0, 0, 0, 0, 0, 0, 0, 0, 0, 0, 0, 0, 0, 0, 0, 0, 0, 0x61, 0x62, 0x63, 0x64]

/-- The frame is complete with its 24 bytes, its parts are not its body, and its key is what
follows it. -/
theorem overreach_not_exact : check overreach 0 = .ok 24 ∧
    ∃ f g, parse overreach 0 = .ok f ∧ f.key = [0x61, 0x62, 0x63, 0x64] ∧
      ¬ f.Spells (Bytes.slice overreach 24 24) ∧
      parse (overreach.take 24) 0 = .ok g ∧ g.key = [] := by
  refine ⟨by decide, decode overreach, decode (overreach.take 24), rfl, rfl, ?_, rfl, rfl⟩
  intro hs
  have hbody := hs.body
  revert hbody
  decide

end Frame

end FleetProbe.Wire
