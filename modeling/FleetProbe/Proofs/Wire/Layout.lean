import Mathlib.Algebra.Ring.Nat
import FleetProbe.Wire.Frame
/-!
Big-endian numbers side by side, and the header as one such row. A number that fits its width is
read back as it was written, and bytes that were read are written back as they were; so a header
and its 24 bytes say the same.
-/

namespace FleetProbe

namespace Bytes

@[simp]
theorem length_ofNat (width n : Nat) : (ofNat width n).length = width := by
  induction width with
  | zero => rfl
  | succ width ih => rw [ofNat, List.length_cons, ih]

theorem foldl_eq (bs : Bytes) (n : Nat) :
    bs.foldl (fun n b => n * 256 + b.toNat) n = n * 256 ^ bs.length + toNat bs := by
  induction bs generalizing n with
  | nil => simp [toNat]
  | cons b bs ih =>
    have hb : toNat (b :: bs) = b.toNat * 256 ^ bs.length + toNat bs := by
      rw [toNat, List.foldl_cons, ih]
      simp
    rw [List.foldl_cons, ih, hb, List.length_cons, Nat.pow_succ, Nat.add_mul, Nat.mul_assoc,
      Nat.mul_comm 256, Nat.add_assoc]

theorem toNat_cons (b : UInt8) (bs : Bytes) :
    toNat (b :: bs) = b.toNat * 256 ^ bs.length + toNat bs := by
  rw [toNat, List.foldl_cons, foldl_eq]
  simp

theorem toNat_lt (bs : Bytes) : toNat bs < 256 ^ bs.length := by
  induction bs with
  | nil => decide
  | cons b bs ih =>
    have hb : (b.toNat + 1) * 256 ^ bs.length ≤ 256 * 256 ^ bs.length :=
      Nat.mul_le_mul_right _ b.toNat_lt
    rw [Nat.add_mul, Nat.one_mul] at hb
    rw [toNat_cons, List.length_cons, Nat.pow_succ, Nat.mul_comm _ 256]
    omega

/-- A number is written by its remainder alone. -/
theorem ofNat_add_mul (width n k : Nat) : ofNat width (n + k * 256 ^ width) = ofNat width n := by
  induction width generalizing k with
  | zero => rfl
  | succ width ih =>
    have hk : k * 256 ^ (width + 1) = (k * 256) * 256 ^ width := by
      rw [Nat.pow_succ, Nat.mul_comm (256 ^ width), Nat.mul_assoc]
    have hdigit : ((n + k * 256 * 256 ^ width) / 256 ^ width).toUInt8 =
        (n / 256 ^ width).toUInt8 := by
      rw [Nat.add_mul_div_right _ _ (Nat.pow_pos (by decide))]
      apply UInt8.toNat_inj.mp
      simp
    rw [hk, ofNat, ofNat, ih]
    simp only [Nat.pow_eq, hdigit]

theorem toNat_ofNat (width n : Nat) (h : n < 256 ^ width) : toNat (ofNat width n) = n := by
  induction width generalizing n with
  | zero =>
    have hn : n = 0 := by simpa using h
    rw [hn]
    rfl
  | succ width ih =>
    have hpos : 0 < 256 ^ width := Nat.pow_pos (by decide)
    have hdigit : n / 256 ^ width < 256 := by
      apply Nat.div_lt_of_lt_mul
      rwa [Nat.pow_succ] at h
    have hrest : ofNat width n = ofNat width (n % 256 ^ width) := by
      conv => lhs; rw [← Nat.mod_add_div n (256 ^ width), Nat.mul_comm, ofNat_add_mul]
    rw [ofNat, toNat_cons, length_ofNat, hrest, ih _ (Nat.mod_lt _ hpos)]
    simp only [Nat.pow_eq, Nat.toUInt8_eq, UInt8.toNat_ofNat', Nat.mod_eq_of_lt hdigit]
    rw [Nat.mul_comm]
    exact Nat.div_add_mod n (256 ^ width)

theorem ofNat_toNat (bs : Bytes) : ofNat bs.length (toNat bs) = bs := by
  induction bs with
  | nil => rfl
  | cons b bs ih =>
    have hlt := toNat_lt bs
    have hdigit : (b.toNat * 256 ^ bs.length + toNat bs) / 256 ^ bs.length = b.toNat := by
      rw [Nat.add_comm, Nat.add_mul_div_right _ _ (Nat.pow_pos (by decide)),
        Nat.div_eq_of_lt hlt, Nat.zero_add]
    rw [List.length_cons, ofNat, toNat_cons, Nat.add_comm, ofNat_add_mul, ih]
    simp only [Nat.pow_eq, Nat.add_comm (toNat bs), hdigit]
    simp

/-- Numbers side by side, each in its width. -/
def ofNats (row : List (Nat × Nat)) : Bytes := row.flatMap fun f => ofNat f.1 f.2

/-- The numbers that stand side by side in the given widths. -/
def toNats : (widths : List Nat) → Bytes → List Nat
  | [], _ => []
  | width :: widths, bs => toNat (bs.take width) :: toNats widths (bs.drop width)

theorem length_ofNats (row : List (Nat × Nat)) :
    (ofNats row).length = (row.map Prod.fst).sum := by
  induction row with
  | nil => rfl
  | cons f row ih =>
    rw [ofNats, List.flatMap_cons, List.length_append, length_ofNat, List.map_cons, List.sum_cons]
    exact congrArg _ ih

theorem toNats_ofNats (row : List (Nat × Nat)) (rest : Bytes)
    (h : ∀ f ∈ row, f.2 < 256 ^ f.1) :
    toNats (row.map Prod.fst) (ofNats row ++ rest) = row.map Prod.snd := by
  induction row with
  | nil => rfl
  | cons f row ih =>
    have hl : (ofNat f.1 f.2).length = f.1 := length_ofNat f.1 f.2
    have hcons : ofNats (f :: row) ++ rest = ofNat f.1 f.2 ++ (ofNats row ++ rest) := by
      simp [ofNats]
    rw [hcons, List.map_cons, toNats, List.take_left' hl, List.drop_left' hl,
      toNat_ofNat _ _ (h f List.mem_cons_self), ih fun g hg => h g (List.mem_cons_of_mem _ hg),
      List.map_cons]

theorem ofNats_toNats (widths : List Nat) (bs : Bytes) (h : widths.sum ≤ bs.length) :
    ofNats (widths.zip (toNats widths bs)) = bs.take widths.sum := by
  induction widths generalizing bs with
  | nil => rfl
  | cons width widths ih =>
    rw [List.sum_cons] at h
    have hl : (bs.take width).length = width := by
      rw [List.length_take]
      omega
    have hrest : widths.sum ≤ (bs.drop width).length := by
      rw [List.length_drop]
      omega
    have hhead : ofNat width (toNat (bs.take width)) = bs.take width := by
      have ht := ofNat_toNat (bs.take width)
      rwa [hl] at ht
    have htail := ih (bs.drop width) hrest
    rw [ofNats] at htail
    rw [toNats, ofNats, List.zip_cons_cons, List.flatMap_cons, htail, hhead, List.sum_cons,
      List.take_add]

end Bytes

namespace Wire.ResponseHeader

/-- Fields in wire order, each with its width. -/
def fields (h : ResponseHeader) : List (Nat × Nat) :=
  [(1, h.magic), (1, h.opcode), (2, h.keyLength), (1, h.extraLength), (1, h.dataType),
    (2, h.status), (4, h.bodyLength), (4, h.serial), (8, h.cas)]

/-- Every field fits its width. -/
def Fits (h : ResponseHeader) : Prop := ∀ f ∈ h.fields, f.2 < 256 ^ f.1

instance (h : ResponseHeader) : Decidable h.Fits :=
  inferInstanceAs (Decidable (∀ f ∈ h.fields, f.2 < 256 ^ f.1))

/-- The widths of the fields. -/
def layout : List Nat := [1, 1, 2, 1, 1, 2, 4, 4, 8]

theorem fields_fst (h : ResponseHeader) : h.fields.map Prod.fst = layout := rfl

theorem fields_snd_inj {g h : ResponseHeader}
    (he : g.fields.map Prod.snd = h.fields.map Prod.snd) : g = h := by
  cases g
  cases h
  simpa [fields] using he

theorem encode_eq (h : ResponseHeader) : h.encode = Bytes.ofNats h.fields := by
  simp [encode, Bytes.ofNats, fields]

theorem ofBytes_fields (bs : Bytes) :
    (ofBytes bs).fields.map Prod.snd = Bytes.toNats layout bs := by
  simp [ofBytes, fields, layout, Bytes.toNats]

@[simp]
theorem length_encode (h : ResponseHeader) : h.encode.length = headerSize := by
  rw [encode_eq, Bytes.length_ofNats, fields_fst]
  rfl

/-- A header whose fields fit is read back from its bytes. -/
theorem ofBytes_encode {h : ResponseHeader} (hf : h.Fits) : ofBytes h.encode = h := by
  apply fields_snd_inj
  have hread := Bytes.toNats_ofNats h.fields [] hf
  rw [List.append_nil, fields_fst] at hread
  rw [ofBytes_fields, encode_eq, hread]

/-- A header that was read is written back as its bytes. -/
theorem encode_ofBytes {bs : Bytes} (h : bs.length = headerSize) : (ofBytes bs).encode = bs := by
  have hzip : (ofBytes bs).fields = layout.zip (Bytes.toNats layout bs) :=
    List.zip_of_prod (fields_fst _) (ofBytes_fields bs)
  have hsum : layout.sum = bs.length := h.symm
  rw [encode_eq, hzip, Bytes.ofNats_toNats layout bs (Nat.le_of_eq hsum), hsum, List.take_length]

theorem ofBytes_fits (bs : Bytes) : (ofBytes bs).Fits := by
  have field (first width : Nat) :
      Bytes.toNat ((bs.drop first).take width) < 256 ^ width :=
    Nat.lt_of_lt_of_le (Bytes.toNat_lt _)
      (Nat.pow_le_pow_right (by decide) (List.length_take_le _ _))
  intro f hf
  simp only [fields, ofBytes, List.mem_cons, List.not_mem_nil, or_false] at hf
  obtain rfl | rfl | rfl | rfl | rfl | rfl | rfl | rfl | rfl := hf <;> exact field _ _

end Wire.ResponseHeader

end FleetProbe
