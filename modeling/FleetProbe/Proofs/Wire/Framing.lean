import Mathlib.Data.List.Forall2
import Mathlib.Tactic.ByContra
import FleetProbe.Wire.Frame
/-!
Where frames begin and end. What is found at an offset depends only on the bytes from there on:
`extent` says how long the first frame of a byte string is and `decode` what it holds. A verdict
once given is not changed by more bytes, and a frame whose lengths agree is not changed either.
-/

namespace FleetProbe

namespace Bytes

theorem slice_nat (bs : Bytes) (first last : Nat) :
    slice bs first last = (bs.drop first).take (last - first) := by
  have h (i : Nat) : bound bs.length i = min bs.length i := by
    have hi : ¬ (i : Int) < 0 := by omega
    simp [bound, hi]
  rw [slice, h, h]
  by_cases hf : first ≤ bs.length
  · rw [Nat.min_eq_right hf]
    by_cases hl : last ≤ bs.length
    · rw [Nat.min_eq_right hl]
    · have hd : (bs.drop first).length = bs.length - first := List.length_drop
      rw [Nat.min_eq_left (show bs.length ≤ last by omega), List.take_of_length_le (by omega),
        List.take_of_length_le (by omega)]
  · rw [Nat.min_eq_left (show bs.length ≤ first by omega), List.drop_length,
      List.drop_of_length_le (show bs.length ≤ first by omega)]
    simp

theorem at?_nat (bs : Bytes) (i : Nat) : at? bs i = (bs.drop i).head? := by
  have hi : ¬ (i : Int) < 0 := by omega
  rw [at?, if_neg hi, List.head?_drop, Int.toNat_natCast]

theorem field?_nat (bs : Bytes) (offset width : Nat) (h : offset + width ≤ bs.length) :
    field? bs offset width = some ((bs.drop offset).take width) := by
  have ho : ¬ (offset : Int) < 0 := by omega
  have hl : ((bs.drop offset).take width).length = width := by
    rw [List.length_take, List.length_drop]
    omega
  simp [field?, ho, hl]

end Bytes

namespace Wire.Frame

/-- Length of the body that a header announces. -/
def bodyLength (bs : Bytes) : Nat := Bytes.toNat ((bs.drop 8).take 4)

/-- Length of the first frame of a byte string, once all of it is there. -/
def extent (bs : Bytes) : Except FrameFault Nat :=
  if bs.length < headerSize then .error .incomplete
  else if (bs.headD 0).toNat ≠ responseMagic then .error (.mismatch (bs.headD 0).toNat)
  else if bs.length < headerSize + bodyLength bs then .error .incomplete
  else .ok (headerSize + bodyLength bs)

/-- The first frame of a byte string. -/
def decode (bs : Bytes) : Frame :=
  let h := ResponseHeader.ofBytes (bs.take headerSize)
  { header := h
    extra := (bs.drop headerSize).take h.extraLength
    key := (bs.drop (headerSize + h.extraLength)).take h.keyLength
    value := (bs.drop (headerSize + h.extraLength + h.keyLength)).take
      (h.bodyLength - (h.extraLength + h.keyLength)) }

theorem check_eq (buffer : Bytes) (offset : Nat) :
    check buffer offset = extent (buffer.drop offset) := by
  have hd : (buffer.drop offset).length = buffer.length - offset := List.length_drop
  by_cases hl : (buffer.length : Int) - offset < headerSize
  · have hm : (buffer.drop offset).length < headerSize := by
      rw [hd]
      simp only [headerSize] at hl ⊢
      omega
    rw [extent, if_pos hm]
    simp [check, ResponseHeader.check, hl]
  · have hn : ¬ (buffer.drop offset).length < headerSize := by
      rw [hd]
      simp only [headerSize] at hl ⊢
      omega
    have hle : offset + 24 ≤ buffer.length := by
      simp only [headerSize] at hl
      omega
    obtain ⟨magic, rest, hr⟩ : ∃ magic rest, buffer.drop offset = magic :: rest :=
      List.exists_cons_of_ne_nil fun h => by
        rw [h, List.length_nil] at hd
        omega
    have ha : Bytes.at? buffer offset = some magic := by rw [Bytes.at?_nat, hr]; rfl
    have hh : (buffer.drop offset).headD 0 = magic := by rw [hr]; rfl
    have hf : Bytes.field? buffer ((offset : Int) + 8) 4 =
        some (((buffer.drop offset).drop 8).take 4) := by
      have h8 := Bytes.field?_nat buffer (offset + 8) 4 (by omega)
      rw [List.drop_drop]
      exact h8
    rw [extent, if_neg hn, hh]
    by_cases hmagic : magic.toNat = responseMagic
    · have hc : ResponseHeader.check buffer offset =
          .ok (headerSize + bodyLength (buffer.drop offset)) := by
        rw [ResponseHeader.check, if_neg hl, ha]
        simp [hmagic, hf, bodyLength]
      rw [if_neg (by simp [hmagic])]
      simp only [check, hc, hd]
      by_cases ht : buffer.length - offset < headerSize + bodyLength (buffer.drop offset)
      · rw [if_pos ht, if_pos (by omega)]
      · rw [if_neg ht, if_neg (by omega)]
    · have hc : ResponseHeader.check buffer offset = .error (.mismatch magic.toNat) := by
        rw [ResponseHeader.check, if_neg hl, ha]
        simp [hmagic]
      rw [if_pos hmagic]
      simp only [check, hc]

theorem parse_eq (buffer : Bytes) (offset : Nat) (h : headerSize ≤ (buffer.drop offset).length) :
    parse buffer offset = .ok (decode (buffer.drop offset)) := by
  have hl : offset + headerSize ≤ buffer.length := by
    rw [List.length_drop] at h
    simp only [headerSize] at h ⊢
    omega
  have hp : ResponseHeader.parse buffer offset =
      .ok (ResponseHeader.ofBytes ((buffer.drop offset).take headerSize)) := by
    rw [ResponseHeader.parse, Bytes.field?_nat buffer offset headerSize hl]
  rw [parse, hp, decode]
  generalize ResponseHeader.ofBytes ((buffer.drop offset).take headerSize) = hd
  have part (first last : Nat) : Bytes.slice buffer (offset + first : Nat) (offset + last : Nat) =
      ((buffer.drop offset).drop first).take (last - first) := by
    rw [Bytes.slice_nat, List.drop_drop, Nat.add_sub_add_left]
  simp only [← Int.natCast_add, Nat.add_assoc]
  rw [part, part, part]
  simp only [Nat.add_sub_cancel_left, Nat.add_sub_add_left]

theorem extent_bounds {bs : Bytes} {n : Nat} (h : extent bs = .ok n) :
    n = headerSize + bodyLength bs ∧ n ≤ bs.length := by
  unfold extent at h
  split at h
  · cases h
  · split at h
    · cases h
    · split at h
      · cases h
      · cases h
        exact ⟨rfl, by omega⟩

theorem extent_error {bs : Bytes} {e : FrameFault} (h : extent bs = .error e) :
    (headerSize ≤ bs.length ∧ (bs.headD 0).toNat ≠ responseMagic ∧
      e = .mismatch (bs.headD 0).toNat) ∨
    (¬ (headerSize ≤ bs.length ∧ (bs.headD 0).toNat ≠ responseMagic) ∧ e = .incomplete) := by
  unfold extent at h
  split at h
  · cases h
    exact .inr ⟨by omega, rfl⟩
  · split at h
    · next hn hm =>
      cases h
      exact .inl ⟨by omega, hm, rfl⟩
    · next hn hm =>
      split at h
      · cases h
        exact .inr ⟨fun ha => hm ha.2, rfl⟩
      · cases h

theorem headD_append {bs : Bytes} (more : Bytes) (h : 0 < bs.length) :
    (bs ++ more).headD 0 = bs.headD 0 := by
  cases bs with
  | nil => cases h
  | cons => rfl

theorem bodyLength_append {bs : Bytes} (more : Bytes) (h : headerSize ≤ bs.length) :
    bodyLength (bs ++ more) = bodyLength bs := by
  simp only [headerSize] at h
  have hd : 4 ≤ (bs.drop 8).length := by
    rw [List.length_drop]
    omega
  rw [bodyLength, bodyLength, List.drop_append_of_le_length (by omega),
    List.take_append_of_le_length hd]

/-- A frame that is complete stays as long as it is. -/
theorem extent_append {bs : Bytes} {n : Nat} (more : Bytes) (h : extent bs = .ok n) :
    extent (bs ++ more) = .ok n := by
  obtain ⟨rfl, hn⟩ := extent_bounds h
  have hs : headerSize ≤ bs.length := by omega
  have hm : (bs.headD 0).toNat = responseMagic := by
    by_contra hm
    rw [extent, if_neg (by omega), if_pos hm] at h
    cases h
  have hb : 0 < bs.length := by
    simp only [headerSize] at hs
    omega
  rw [extent, headD_append more hb, bodyLength_append more hs, List.length_append,
    if_neg (by omega), if_neg (not_not_intro hm), if_neg (by omega)]

/-- What is no response does not become one. -/
theorem extent_append_mismatch {bs : Bytes} {magic : Nat} (more : Bytes)
    (h : extent bs = .error (.mismatch magic)) :
    extent (bs ++ more) = .error (.mismatch magic) := by
  obtain ⟨hs, hm, he⟩ | ⟨-, he⟩ := extent_error h
  · cases he
    have hb : 0 < bs.length := by
      simp only [headerSize] at hs
      omega
    rw [extent, headD_append more hb, List.length_append, if_neg (by omega), if_pos hm]
  · cases he

/-- The first bytes of a complete frame are measured as all of them once the whole frame is among
them, and are incomplete before. -/
theorem extent_take {bs : Bytes} {n : Nat} (k : Nat) (h : extent bs = .ok n) :
    extent (bs.take k) = if n ≤ k then .ok n else .error .incomplete := by
  obtain ⟨hn, hle⟩ := extent_bounds h
  have hl : (bs.take k).length = min k bs.length := List.length_take
  cases he : extent (bs.take k) with
  | ok m =>
    have hm := extent_append (bs.drop k) he
    have hle := (extent_bounds he).2
    rw [List.take_append_drop, h] at hm
    cases hm
    rw [if_pos (by omega)]
  | error e =>
    obtain ⟨-, -, rfl⟩ | ⟨hmagic, rfl⟩ := extent_error he
    · have hm := extent_append_mismatch (bs.drop k) he
      rw [List.take_append_drop, h] at hm
      cases hm
    · rw [if_neg]
      intro hk
      -- Bytes that reach the end of the frame are not incomplete.
      have hb := bodyLength_append (bs.drop k) (show headerSize ≤ (bs.take k).length by omega)
      rw [List.take_append_drop] at hb
      rw [extent, if_neg (by omega), if_neg fun hm => hmagic ⟨by omega, hm⟩, ← hb,
        if_neg (by omega)] at he
      cases he

/-- Two frames with the same header, which are the same wherever the lengths in it agree. -/
def Alike (f g : Frame) : Prop :=
  f.header = g.header ∧ (g.header.keyLength + g.header.extraLength ≤ g.header.bodyLength → f = g)

namespace Alike

theorem refl (f : Frame) : Alike f f := ⟨rfl, fun _ => rfl⟩

theorem symm {f g : Frame} (h : Alike f g) : Alike g f :=
  ⟨h.1.symm, fun hl => (h.2 (h.1 ▸ hl)).symm⟩

theorem trans {f g k : Frame} (h : Alike f g) (h' : Alike g k) : Alike f k := by
  refine ⟨h.1.trans h'.1, fun hl => ?_⟩
  have hg : g = k := h'.2 hl
  subst hg
  exact h.2 hl

theorem length_eq {f g : Frame} (h : Alike f g) : f.length = g.length := by
  rw [length, length, h.1]

end Alike

theorem decode_header_append {bs : Bytes} (more : Bytes) (h : headerSize ≤ bs.length) :
    (decode (bs ++ more)).header = (decode bs).header := by
  simp only [decode]
  rw [List.take_append_of_le_length h]

theorem decode_bodyLength (bs : Bytes) : (decode bs).header.bodyLength = bodyLength bs := by
  simp only [decode, ResponseHeader.ofBytes, bodyLength, headerSize, List.drop_take, List.take_take]
  rfl

theorem decode_length {bs : Bytes} {n : Nat} (h : extent bs = .ok n) : (decode bs).length = n := by
  rw [length, decode_bodyLength, (extent_bounds h).1]

/-- A part of a frame lies before the end of the bytes that were measured. -/
theorem part_append {bs : Bytes} (more : Bytes) (first width : Nat)
    (h : first + width ≤ bs.length) :
    ((bs ++ more).drop first).take width = (bs.drop first).take width := by
  have hd : width ≤ (bs.drop first).length := by
    rw [List.length_drop]
    omega
  rw [List.drop_append_of_le_length (by omega), List.take_append_of_le_length hd]

/-- A frame that is complete stays what it is; only one with wrong lengths reads past its end. -/
theorem decode_append {bs : Bytes} {n : Nat} (more : Bytes) (h : extent bs = .ok n) :
    Alike (decode (bs ++ more)) (decode bs) := by
  obtain ⟨rfl, hn⟩ := extent_bounds h
  have hs : headerSize ≤ bs.length := by omega
  refine ⟨decode_header_append more hs, fun hl => ?_⟩
  rw [decode_bodyLength] at hl
  have hbody := decode_bodyLength bs
  simp only [decode] at hl hbody ⊢
  rw [List.take_append_of_le_length hs]
  generalize ResponseHeader.ofBytes (bs.take headerSize) = hd at hl hbody
  rw [part_append more _ _ (by omega), part_append more _ _ (by omega),
    part_append more _ _ (by omega)]

/-- Bytes that frames take. -/
def span (fs : List Frame) : Nat := fs.foldr (fun f n => f.length + n) 0

/-- Frames taken one after the other off a byte string, and what is left of it. -/
inductive Pops : Bytes → List Frame → Bytes → Prop
  | nil (bs : Bytes) : Pops bs [] bs
  | cons {bs rest : Bytes} {n : Nat} {f : Frame} {fs : List Frame} :
    extent bs = .ok n → Alike f (decode bs) → Pops (bs.drop n) fs rest → Pops bs (f :: fs) rest

namespace Pops

theorem trans {bs mid rest : Bytes} {fs gs : List Frame} (h : Pops bs fs mid)
    (h' : Pops mid gs rest) : Pops bs (fs ++ gs) rest := by
  induction h with
  | nil => exact h'
  | cons hn hf _ ih => exact .cons hn hf (ih h')

theorem one {bs : Bytes} {n : Nat} {f : Frame} (hn : extent bs = .ok n)
    (hf : Alike f (decode bs)) : Pops bs [f] (bs.drop n) :=
  .cons hn hf (.nil _)

/-- More bytes at the end do not change what was taken at the front. -/
theorem append {bs rest : Bytes} {fs : List Frame} (more : Bytes) (h : Pops bs fs rest) :
    Pops (bs ++ more) fs (rest ++ more) := by
  induction h with
  | nil => exact .nil _
  | @cons bs rest n f fs hn hf _ ih =>
    refine .cons (extent_append more hn) (hf.trans (decode_append more hn).symm) ?_
    rw [List.drop_append_of_le_length (extent_bounds hn).2]
    exact ih

/-- The frames taken account for every byte before what is left. -/
theorem rest_eq {bs rest : Bytes} {fs : List Frame} (h : Pops bs fs rest) :
    rest = bs.drop (span fs) := by
  induction h with
  | nil => rfl
  | @cons bs rest n f fs hn hf _ ih =>
    have hl : f.length = n := hf.length_eq.trans (decode_length hn)
    have hspan : span (f :: fs) = n + span fs := by rw [← hl]; rfl
    rw [ih, List.drop_drop, hspan]

/-- Whatever was taken is the beginning of all that can be taken. -/
theorem prefix_of {bs rest last : Bytes} {fs gs : List Frame} {e : FrameFault}
    (h : Pops bs fs rest) (hg : Pops bs gs last) (he : extent last = .error e) :
    List.Forall₂ Alike fs (gs.take fs.length) ∧ Pops rest (gs.drop fs.length) last := by
  induction h generalizing gs with
  | nil => exact ⟨.nil, hg⟩
  | @cons bs rest n f fs hn hf _ ih =>
    cases hg with
    | nil =>
      rw [hn] at he
      cases he
    | cons hn' hg' hrest =>
      rw [hn] at hn'
      cases hn'
      obtain ⟨hall, hleft⟩ := ih hrest
      exact ⟨.cons (hf.trans hg'.symm) hall, hleft⟩

/-- Where nothing can be taken, nothing is taken. -/
theorem eq_nil {bs rest : Bytes} {fs : List Frame} {e : FrameFault} (h : Pops bs fs rest)
    (he : extent bs = .error e) : fs = [] ∧ rest = bs := by
  cases h with
  | nil => exact ⟨rfl, rfl⟩
  | cons hn =>
    rw [hn] at he
    cases he

end Pops

/-- A walk with enough fuel takes every frame that is complete, and stops at what is none. -/
theorem walkFrom_pops (buffer : Bytes) (fuel offset : Nat)
    (h : (buffer.drop offset).length < fuel) :
    ∃ last : Nat, (walkFrom buffer fuel offset).offset = last ∧
      Pops (buffer.drop offset) (walkFrom buffer fuel offset).frames (buffer.drop last) ∧
      extent (buffer.drop last) = .error (walkFrom buffer fuel offset).fault := by
  induction fuel generalizing offset with
  | zero => omega
  | succ fuel ih =>
    cases hm : extent (buffer.drop offset) with
    | error e =>
      have hw : walkFrom buffer (fuel + 1) offset = ⟨[], offset, e⟩ := by
        simp only [walkFrom, check_eq, hm]
      rw [hw]
      exact ⟨offset, rfl, .nil _, hm⟩
    | ok n =>
      obtain ⟨hn, hle⟩ := extent_bounds hm
      have hs : headerSize ≤ (buffer.drop offset).length := by omega
      have hw : walkFrom buffer (fuel + 1) offset =
          { walkFrom buffer fuel (offset + n : Nat) with
            frames := decode (buffer.drop offset) ::
              (walkFrom buffer fuel (offset + n : Nat)).frames } := by
        simp only [walkFrom, check_eq, hm, parse_eq buffer offset hs, Int.natCast_add]
      -- A frame takes a header at least, so the fuel lasts.
      have hfuel : (buffer.drop (offset + n)).length < fuel := by
        rw [← List.drop_drop, List.length_drop]
        simp only [headerSize] at hn
        omega
      obtain ⟨last, ho, hp, he⟩ := ih (offset + n) hfuel
      rw [hw]
      rw [← List.drop_drop] at hp
      exact ⟨last, ho, .cons hm (.refl _) hp, he⟩

/-- The walk of a whole string accounts for it: its frames come first, and what is left at its
offset begins with no complete frame. -/
theorem walk_pops (bs : Bytes) :
    Pops bs (walk bs 0).frames (bs.drop (walk bs 0).offset.toNat) ∧
      extent (bs.drop (walk bs 0).offset.toNat) = .error (walk bs 0).fault := by
  obtain ⟨last, ho, hp, he⟩ := walkFrom_pops bs (bs.length + 1) 0 (by simp)
  have hw : walk bs 0 = walkFrom bs (bs.length + 1) (0 : Nat) := rfl
  rw [hw, ho]
  exact ⟨hp, he⟩

end Wire.Frame

end FleetProbe
