import FleetProbe.Proofs.Wire.Layout
import FleetProbe.Proofs.Wire.Parts
/-!
Frames and their bytes say the same. A frame whose header tells its lengths is found and read back
wherever its bytes stand, and no part of them is taken for a whole frame. The other way round, a
frame that was read is written as the bytes it was read from, provided that its lengths agree.
-/

namespace FleetProbe.Wire.Frame

/-- Every field of the header fits its width, and the lengths in it are those of the parts. -/
structure Proper (f : Frame) : Prop where
  fits : f.header.Fits
  extra : f.extra.length = f.header.extraLength
  key : f.key.length = f.header.keyLength
  body : f.header.bodyLength = f.header.extraLength + f.header.keyLength + f.value.length

namespace Proper

variable {f : Frame}

theorem consistent (h : f.Proper) : f.header.Consistent := by
  have hbody := h.body
  rw [ResponseHeader.Consistent]
  omega

theorem length_encode (h : f.Proper) : f.encode.length = f.length := by
  have hextra := h.extra
  have hkey := h.key
  have hbody := h.body
  simp only [encode, length, List.length_append, ResponseHeader.length_encode]
  omega

/-- A frame is read back from its bytes, whatever follows them. -/
theorem decode_encode (h : f.Proper) (rest : Bytes) : decode (f.encode ++ rest) = f := by
  obtain ⟨header, extra, key, value⟩ := f
  have hextra : extra.length = header.extraLength := h.extra
  have hkey : key.length = header.keyLength := h.key
  have hbody := h.body
  have hsize := header.length_encode
  have hbytes : encode ⟨header, extra, key, value⟩ ++ rest =
      header.encode ++ (extra ++ (key ++ (value ++ rest))) := by
    simp [encode]
  have hvalue : header.bodyLength - (header.extraLength + header.keyLength) = value.length :=
    Nat.sub_eq_of_eq_add' hbody
  simp only [decode, ← List.drop_drop]
  rw [hbytes, List.take_left' hsize, ResponseHeader.ofBytes_encode h.fits, List.drop_left' hsize,
    List.take_left' hextra, List.drop_left' hextra, List.take_left' hkey, List.drop_left' hkey,
    hvalue, List.take_left]

end Proper

theorem decode_magic {bs : Bytes} (h : headerSize ≤ bs.length) :
    (decode bs).header.magic = (bs.headD 0).toNat := by
  obtain ⟨b, rest, rfl⟩ : ∃ b rest, bs = b :: rest :=
    List.exists_cons_of_ne_nil fun hnil => by
      rw [hnil] at h
      cases h
  simp [decode, ResponseHeader.ofBytes, Bytes.toNat, headerSize]

theorem Proper.extent_encode {f : Frame} (h : f.Proper) (hm : f.header.magic = responseMagic)
    (rest : Bytes) : extent (f.encode ++ rest) = .ok f.encode.length := by
  have hl : f.length ≤ (f.encode ++ rest).length := by
    rw [List.length_append, h.length_encode]
    omega
  have hsize : headerSize ≤ (f.encode ++ rest).length := Nat.le_trans (Nat.le_add_right _ _) hl
  have hmagic : ((f.encode ++ rest).headD 0).toNat = responseMagic := by
    rw [← decode_magic hsize, h.decode_encode, hm]
  have hbody : headerSize + bodyLength (f.encode ++ rest) = f.length := by
    rw [← decode_bodyLength, h.decode_encode, length]
  rw [extent, hbody, if_neg (by omega), if_neg (not_not_intro hmagic), if_neg (by omega),
    h.length_encode]

/-- A frame that was read is written as its bytes. -/
theorem encode_decode {bs : Bytes} {n : Nat} (h : extent bs = .ok n)
    (hc : (decode bs).header.Consistent) : (decode bs).encode = bs.take n := by
  obtain ⟨hn, hle⟩ := extent_bounds h
  have hheader : (decode bs).header.encode = bs.take headerSize := by
    apply ResponseHeader.encode_ofBytes
    rw [List.length_take]
    omega
  have hbody := (decode_spells h hc).body
  rw [List.append_assoc] at hbody
  rw [encode, List.append_assoc, List.append_assoc, hbody, hheader, ← List.take_add]
  congr 1
  omega

theorem decode_proper {bs : Bytes} {n : Nat} (h : extent bs = .ok n)
    (hc : (decode bs).header.Consistent) : (decode bs).Proper := by
  have hs := decode_spells h hc
  have hvalue := hs.value
  rw [ResponseHeader.valueLength] at hvalue
  exact ⟨ResponseHeader.ofBytes_fits _, hs.extra, hs.key, by omega⟩

/-- **Frames and bytes are two ways of writing the same.** A response whose header tells its
lengths is measured and read back wherever its bytes stand in a buffer, and a proper part of them
is incomplete. A frame read from a buffer, its lengths agreeing, is such a response and is written
as the bytes that were measured. -/
theorem decoding_inverts_encoding :
    (∀ f : Frame, f.Proper → f.header.magic = responseMagic → ∀ before after : Bytes,
      check (before ++ f.encode ++ after) before.length = .ok f.encode.length ∧
      parse (before ++ f.encode ++ after) before.length = .ok f ∧
      ∀ front, front <+: f.encode → front ≠ f.encode →
        check (before ++ front) before.length = .error .incomplete) ∧
    ∀ (buffer : Bytes) (offset n : Nat), check buffer offset = .ok n →
      ∃ f, parse buffer offset = .ok f ∧ (f.header.Consistent →
        f.Proper ∧ f.encode = Bytes.slice buffer offset (offset + n : Nat)) := by
  refine ⟨fun f hf hm before after => ⟨?_, ?_, fun front hfront hne => ?_⟩, fun buffer offset n h => ?_⟩
  · rw [check_eq, List.append_assoc, List.drop_left, hf.extent_encode hm]
  · have hd : (before ++ f.encode ++ after).drop before.length = f.encode ++ after := by
      rw [List.append_assoc, List.drop_left]
    rw [parse_eq, hd, hf.decode_encode]
    rw [hd, List.length_append, hf.length_encode, length]
    omega
  · have hk : front.length < f.encode.length :=
      Nat.lt_of_le_of_ne hfront.length_le fun hl => hne (hfront.eq_of_length hl)
    have htake : front = f.encode.take front.length := List.prefix_iff_eq_take.mp hfront
    have hwhole := hf.extent_encode hm []
    rw [List.append_nil] at hwhole
    have he := extent_take front.length hwhole
    rw [← htake, if_neg (Nat.not_le_of_lt hk)] at he
    rw [check_eq, List.drop_left, he]
  · rw [check_eq] at h
    obtain ⟨hn, hle⟩ := extent_bounds h
    refine ⟨_, parse_eq buffer offset (by omega), fun hc => ⟨decode_proper h hc, ?_⟩⟩
    rw [Bytes.slice_nat, Nat.add_sub_cancel_left, encode_decode h hc]

/-- A frame with extras, a key and a value, and no field of its header without a number. -/
def fullFrame : Frame :=
  { header := ⟨responseMagic, 0x0c, 2, 4, 0, 0x0101, 9, 0x01020304, 0x1122334455667788⟩
    extra := [0xde, 0xad, 0xbe, 0xef]
    key := [0x61, 0x62]
    value := [0x78, 0x79, 0x7a] }

theorem fullFrame_round_trip : fullFrame.Proper ∧ fullFrame.header.magic = responseMagic ∧
    check ([0x81] ++ fullFrame.encode ++ [0x81]) (1 : Nat) = .ok 33 ∧
    parse ([0x81] ++ fullFrame.encode ++ [0x81]) (1 : Nat) = .ok fullFrame ∧
    fullFrame.header.Consistent ∧
    fullFrame.encode = Bytes.slice ([0x81] ++ fullFrame.encode ++ [0x81]) (1 : Nat) (34 : Nat) := by
  have hproper : fullFrame.Proper := ⟨by decide, rfl, rfl, rfl⟩
  obtain ⟨hcheck, hparse, -⟩ :=
    decoding_inverts_encoding.1 fullFrame hproper rfl [0x81] [0x81]
  obtain ⟨f, hf, hbytes⟩ := decoding_inverts_encoding.2 _ 1 33 hcheck
  obtain rfl : fullFrame = f := Except.ok.inj (hparse.symm.trans hf)
  exact ⟨hproper, rfl, hcheck, hparse, hproper.consistent, (hbytes hproper.consistent).2⟩

end FleetProbe.Wire.Frame
