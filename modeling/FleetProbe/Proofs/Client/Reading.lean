import FleetProbe.Client.Stream
import FleetProbe.Proofs.Wire.Framing
/-!
What a call takes off a connection that is not broken. The bytes in the buffer and those still on
the link are one string, `rest`; a call takes whole frames off its front, up to the one it wants.
Where it stops without one, no complete frame is left.
-/

namespace FleetProbe.Client

open Wire Wire.Frame

/-- The bytes that came in and are in no frame yet, in their order. -/
def rest (c : Client) : Bytes := c.buffer ++ c.link.inbox

/-- What is popped is the first frame, measured and decoded. -/
theorem popFrame_eq (buffer : Bytes) :
    popFrame buffer =
      match extent buffer with
      | .ok n => .ok (some (decode buffer, buffer.drop n))
      | .error (.mismatch magic) => .error magic
      | .error _ => .ok none := by
  have hc : check buffer 0 = extent buffer := by simpa using check_eq buffer 0
  unfold popFrame
  rw [hc]
  cases hm : extent buffer with
  | error e => cases e <;> rfl
  | ok n =>
    obtain ⟨hn, hle⟩ := extent_bounds hm
    have hs : headerSize ≤ (buffer.drop 0).length := by
      rw [List.drop_zero]
      omega
    have hp : parse buffer 0 = .ok (decode buffer) := by simpa using parse_eq buffer 0 hs
    simp only [hp]

theorem popFrame_some {buffer left : Bytes} {f : Frame}
    (h : popFrame buffer = .ok (some (f, left))) :
    ∃ n, extent buffer = .ok n ∧ f = decode buffer ∧ left = buffer.drop n := by
  rw [popFrame_eq] at h
  split at h
  · next n hm =>
    cases h
    exact ⟨n, hm, rfl, rfl⟩
  · cases h
  · cases h

theorem popFrame_none {buffer : Bytes} (h : popFrame buffer = .ok none) :
    extent buffer = .error .incomplete := by
  rw [popFrame_eq] at h
  split at h
  · cases h
  · cases h
  · next e hne hm =>
    obtain ⟨-, -, he⟩ | ⟨-, he⟩ := extent_error hm
    · exact absurd he (hne _)
    · rw [hm, he]

theorem popFrame_error {buffer : Bytes} {magic : Nat} (h : popFrame buffer = .error magic) :
    extent buffer = .error (.mismatch magic) := by
  rw [popFrame_eq] at h
  split at h
  · cases h
  · next m hm =>
    cases h
    exact hm
  · cases h

/-- The fault of a stream that ended where no complete frame is left. -/
def ending (bs : Bytes) : Fault :=
  if headerSize ≤ bs.length ∧ (bs.headD 0).toNat ≠ responseMagic then
    .mismatch (bs.headD 0).toNat
  else if bs.isEmpty then .noResponse
  else .reset bs.length

/-- A call stops with a fault: no frame begins the bytes, and none will. -/
def Ends (bs : Bytes) (ended : Bool) (e : Fault) : Prop :=
  (∃ magic, extent bs = .error (.mismatch magic) ∧ e = ending bs) ∨
    (ended = true ∧ extent bs = .error .incomplete ∧ e = ending bs)

namespace Ends

theorem eq_ending {bs : Bytes} {ended : Bool} {e : Fault} (h : Ends bs ended e) :
    e = ending bs := by
  obtain ⟨magic, -, he⟩ | ⟨-, -, he⟩ := h
  · exact he
  · exact he

theorem extent_eq {bs : Bytes} {ended : Bool} {e : Fault} (h : Ends bs ended e) :
    ∃ fault, extent bs = .error fault := by
  obtain ⟨magic, hm, -⟩ | ⟨-, hm, -⟩ := h
  · exact ⟨_, hm⟩
  · exact ⟨_, hm⟩

/-- Before the end of the stream only a wrong first byte is final, and more bytes keep it. -/
theorem append {bs : Bytes} {e : Fault} (more : Bytes) (h : Ends bs false e) :
    Ends (bs ++ more) false e := by
  obtain ⟨magic, hm, he⟩ | ⟨hended, -, -⟩ := h
  · refine .inl ⟨magic, extent_append_mismatch more hm, ?_⟩
    obtain ⟨hs, hb, -⟩ | ⟨-, hi⟩ := extent_error hm
    · have hpos : 0 < bs.length := by
        simp only [headerSize] at hs
        omega
      have hs' : headerSize ≤ (bs ++ more).length := by
        rw [List.length_append]
        omega
      rw [he, ending, ending, headD_append more hpos, if_pos ⟨hs, hb⟩, if_pos ⟨hs', hb⟩]
    · cases hi
  · cases hended

theorem finish {bs : Bytes} {ended : Bool} {e : Fault} (h : Ends bs ended e) : Ends bs true e := by
  obtain hm | ⟨-, hm, he⟩ := h
  · exact .inl hm
  · exact .inr ⟨rfl, hm, he⟩

theorem of_mismatch {bs : Bytes} {magic : Nat} (ended : Bool)
    (h : extent bs = .error (.mismatch magic)) : Ends bs ended (.mismatch magic) := by
  refine .inl ⟨magic, h, ?_⟩
  obtain ⟨hs, hb, he⟩ | ⟨-, he⟩ := extent_error h
  · cases he
    rw [ending, if_pos ⟨hs, hb⟩]
  · cases he

theorem of_incomplete {bs : Bytes} (h : extent bs = .error .incomplete) :
    Ends bs true (if bs.isEmpty then .noResponse else .reset bs.length) := by
  refine .inr ⟨rfl, h, ?_⟩
  obtain ⟨-, -, he⟩ | ⟨hn, -⟩ := extent_error h
  · cases he
  · rw [ending, if_neg hn]

end Ends

/-- What a caller waits for. -/
inductive Call where
  | read
  /-- The answer to one command. -/
  | execute (serial : Int)
  deriving DecidableEq, Repr

namespace Call

def wants : Call → Frame → Bool
  | read, _ => true
  | execute serial, f => (f.header.serial : Int) == serial

theorem wants_alike {k : Call} {f g : Frame} (h : Alike f g) : k.wants f = k.wants g := by
  cases k with
  | read => rfl
  | execute serial => rw [wants, wants, h.1]

end Call

/-- What a call finds out for its caller. -/
def serve : Call → Client → Reading × Client
  | .read, c => c.readResponse
  | .execute serial, c => c.awaitReply serial

/-- The frames that `awaitReply` takes, the skipped ones and the answer. -/
def taken (serial : Int) (c : Client) : List Frame :=
  match _h : readResponse c with
  | (.frame f, d) => if (f.header.serial : Int) = serial then [f] else f :: taken serial d
  | _ => []
termination_by c.unread
decreasing_by exact readResponse_unread _h

/-- The frames that a call takes. -/
def popped : Call → Client → List Frame
  | .read, c =>
    match c.readResponse with
    | (.frame f, _) => [f]
    | _ => []
  | .execute serial, c => taken serial c

/-- Why a call stops after the frames it took. -/
def Stops (k : Call) (fs : List Frame) (d : Client) : Reading → Prop
  | .frame f =>
    ∃ skipped, fs = skipped ++ [f] ∧ (∀ g ∈ skipped, k.wants g = false) ∧ k.wants f = true
  | .pending =>
    (∀ g ∈ fs, k.wants g = false) ∧ d.link.ended = false ∧ extent d.rest = .error .incomplete
  | .fault e => (∀ g ∈ fs, k.wants g = false) ∧ Ends d.rest d.link.ended e

/-- A call takes whole frames off the front of the unread bytes and nothing else, and leaves the
link as it stands. -/
structure Serves (k : Call) (c : Client) (fs : List Frame) (r : Reading) (d : Client) : Prop where
  pops : Pops c.rest fs d.rest
  ended : d.link.ended = c.link.ended
  intact : d.link.readFault = none
  stops : Stops k fs d r

/-- Bytes that go from the link into the buffer stay in their order. -/
theorem rest_fetch (c : Client) (size : Nat) :
    rest { c with
      buffer := c.buffer ++ c.link.inbox.take size
      link := { c.link with inbox := c.link.inbox.drop size } } = c.rest := by
  simp only [rest, List.append_assoc, List.take_append_drop]

/-- Reading takes one frame, or none and says why. -/
theorem readResponse_serves (c : Client) (h : c.link.readFault = none) :
    Serves .read c (popped .read c) c.readResponse.1 c.readResponse.2 := by
  simp only [popped]
  fun_induction readResponse c with
  | case1 c magic hpop =>
    have hm := extent_append_mismatch c.link.inbox (popFrame_error hpop)
    exact ⟨.nil _, rfl, h, by simp, .of_mismatch _ hm⟩
  | case2 c f left hpop =>
    obtain ⟨n, hn, rfl, rfl⟩ := popFrame_some hpop
    have hdrop : rest { c with buffer := c.buffer.drop n } = c.rest.drop n := by
      rw [rest, rest, List.drop_append_of_le_length (extent_bounds hn).2]
    refine ⟨?_, rfl, h, [], rfl, by simp, rfl⟩
    rw [hdrop]
    exact .one (extent_append _ hn) (decode_append _ hn).symm
  | case3 c hpop f hf =>
    rw [h] at hf
    cases hf
  | case4 c hpop hf b bs hin ih =>
    -- Bytes go into the buffer here and no frame is taken, so the same bytes are unread.
    have hrest := rest_fetch c chunkSize
    rw [hin] at hrest
    have ih := ih h
    exact ⟨hrest ▸ ih.pops, ih.ended, ih.intact, ih.stops⟩
  | case5 c hpop hf hin hended =>
    have hrest : c.rest = c.buffer := by rw [rest, hin, List.append_nil]
    refine ⟨.nil _, rfl, h, by simp, ?_⟩
    rw [hrest, hended]
    exact .of_incomplete (popFrame_none hpop)
  | case6 c hpop hf hin hended =>
    have hrest : c.rest = c.buffer := by rw [rest, hin, List.append_nil]
    refine ⟨.nil _, rfl, h, by simp, by simpa using hended, ?_⟩
    rw [hrest]
    exact popFrame_none hpop

/-- One more frame that the caller does not want. -/
theorem Serves.skip {serial : Int} {c d e : Client} {f : Frame} {fs : List Frame} {r : Reading}
    (hread : Serves .read c [f] (.frame f) d) (hf : ¬ (f.header.serial : Int) = serial)
    (h : Serves (.execute serial) d fs r e) : Serves (.execute serial) c (f :: fs) r e := by
  have hnot {gs : List Frame} (hgs : ∀ g ∈ gs, (Call.execute serial).wants g = false) :
      ∀ g ∈ f :: gs, (Call.execute serial).wants g = false := by
    intro g hg
    cases hg with
    | head => exact beq_eq_false_iff_ne.mpr hf
    | tail _ hg => exact hgs g hg
  refine ⟨hread.pops.trans h.pops, h.ended.trans hread.ended, h.intact, ?_⟩
  have hstops := h.stops
  cases r with
  | frame g =>
    obtain ⟨skipped, hfs, hskip, hg⟩ := hstops
    exact ⟨f :: skipped, by rw [hfs, List.cons_append], hnot hskip, hg⟩
  | pending => exact ⟨hnot hstops.1, hstops.2⟩
  | fault e => exact ⟨hnot hstops.1, hstops.2⟩

theorem taken_of_frame {serial : Int} {c d : Client} {f : Frame}
    (h : readResponse c = (.frame f, d)) :
    taken serial c = if (f.header.serial : Int) = serial then [f] else f :: taken serial d := by
  rw [taken]
  split
  · next g e hg =>
    rw [h] at hg
    cases hg
    rfl
  · next hne => exact absurd h (hne f d)

theorem taken_of_ne {serial : Int} {c : Client}
    (h : ∀ f d, readResponse c ≠ (.frame f, d)) : taken serial c = [] := by
  rw [taken]
  split
  · next f d hf => exact absurd hf (h f d)
  · rfl

/-- Waiting for an answer takes every frame up to it. -/
theorem awaitReply_serves (serial : Int) (c : Client) (h : c.link.readFault = none) :
    Serves (.execute serial) c (taken serial c) (awaitReply serial c).1
      (awaitReply serial c).2 := by
  fun_induction awaitReply serial c with
  | case1 c f d hr hf =>
    have hread := readResponse_serves c h
    simp only [popped, hr] at hread
    rw [taken_of_frame hr, if_pos hf]
    exact ⟨hread.pops, hread.ended, hread.intact, [], rfl, by simp, beq_iff_eq.mpr hf⟩
  | case2 c f d hr hf ih =>
    have hread := readResponse_serves c h
    simp only [popped, hr] at hread
    rw [taken_of_frame hr, if_neg hf]
    exact hread.skip hf (ih hread.intact)
  | case3 c d hr =>
    have hread := readResponse_serves c h
    simp only [popped, hr] at hread
    rw [taken_of_ne fun f d hf => by rw [hr] at hf; cases hf]
    exact ⟨hread.pops, hread.ended, hread.intact, by simp, hread.stops.2⟩
  | case4 c e d hr =>
    have hread := readResponse_serves c h
    simp only [popped, hr] at hread
    rw [taken_of_ne fun f d hf => by rw [hr] at hf; cases hf]
    exact ⟨hread.pops, hread.ended, hread.intact, by simp, hread.stops.2⟩

/-- Every call takes whole frames off the front, up to the one it wants. -/
theorem serve_serves (k : Call) (c : Client) (h : c.link.readFault = none) :
    Serves k c (popped k c) (serve k c).1 (serve k c).2 := by
  cases k with
  | read => exact readResponse_serves c h
  | execute serial => exact awaitReply_serves serial c h

end FleetProbe.Client
