import FleetProbe.Client.Link
import FleetProbe.Wire.Frame
/-!
The client of one connection: it takes bytes from the link in chunks, keeps those of an unfinished
frame, and numbers the commands it sends. An answer to another command is skipped.
-/

namespace FleetProbe

structure Client where
  link : Link := {}
  /-- Bytes read from the link that make no whole frame yet. -/
  buffer : Bytes := []
  /-- Number of the next command. -/
  next : Nat := 1
  deriving DecidableEq, Repr

namespace Client

/-- Most bytes that one read takes from the link. -/
def chunkSize : Nat := 4096

/-- Why no answer can be read. -/
inductive Fault where
  /-- The bytes are no response. -/
  | mismatch (magic : Nat)
  /-- The peer ended inside a frame. -/
  | reset (buffered : Nat)
  /-- The peer ended before any byte. -/
  | noResponse
  /-- The connection failed. -/
  | link (f : FleetProbe.Fault)
  deriving DecidableEq, Repr

inductive Reading where
  | frame (f : Wire.Frame)
  /-- More bytes are needed. -/
  | pending
  | fault (f : Fault)
  deriving DecidableEq, Repr

/-- Bytes that came in and are in no frame yet. -/
def unread (c : Client) : Nat := c.buffer.length + c.link.inbox.length

/-- The number for the next command, 32 bits of the count. -/
def takeSerial (c : Client) : Nat × Client := (c.next % 0x100000000, { c with next := c.next + 1 })

/-- The first frame of the buffer and the bytes after it, once it is complete. -/
def popFrame (buffer : Bytes) : Except Nat (Option (Wire.Frame × Bytes)) :=
  match Wire.Frame.check buffer 0 with
  | .ok total =>
    match Wire.Frame.parse buffer 0 with
    | .ok f => .ok (some (f, buffer.drop total))
    | .error _ => .ok none
  | .error (.mismatch magic) => .error magic
  | .error _ => .ok none

/-- Reads until a frame is complete, or nothing more can be read. -/
def readResponse (c : Client) : Reading × Client :=
  match popFrame c.buffer with
  | .error magic => (.fault (.mismatch magic), c)
  | .ok (some (f, rest)) => (.frame f, { c with buffer := rest })
  | .ok none =>
    match c.link.readFault with
    | some f => (.fault (.link f), c)
    | none =>
      match _h : c.link.inbox with
      | b :: bs =>
        readResponse { c with
          buffer := c.buffer ++ (b :: bs).take chunkSize
          link := { c.link with inbox := (b :: bs).drop chunkSize } }
      | [] =>
        if c.link.ended then
          (.fault (if c.buffer.isEmpty then .noResponse else .reset c.buffer.length), c)
        else (.pending, c)
termination_by c.link.inbox.length
decreasing_by
  show (List.drop chunkSize (b :: bs)).length < c.link.inbox.length
  rw [_h, List.length_drop, List.length_cons, chunkSize]
  omega

/-- A complete frame has the bytes of its header at least. -/
theorem check_ok_bounds {buffer : Bytes} {total : Nat} (h : Wire.Frame.check buffer 0 = .ok total) :
    Wire.headerSize ≤ total ∧ total ≤ buffer.length := by
  unfold Wire.Frame.check at h
  split at h
  · cases h
  · next t ht =>
    split at h
    · cases h
    · next hle =>
      cases h
      refine ⟨?_, by omega⟩
      unfold Wire.ResponseHeader.check at ht
      split at ht
      · cases ht
      · split at ht
        · cases ht
        · split at ht
          · cases ht
          · split at ht
            · cases ht; omega
            · cases ht

theorem popFrame_length {buffer rest : Bytes} {f : Wire.Frame}
    (h : popFrame buffer = .ok (some (f, rest))) : rest.length < buffer.length := by
  unfold popFrame at h
  split at h
  · next total ht =>
    have hb := check_ok_bounds ht
    split at h
    · cases h
      simp [Wire.headerSize] at hb ⊢
      omega
    · cases h
  · cases h
  · cases h

/-- A frame takes its bytes off what is unread. -/
theorem readResponse_unread {c d : Client} {f : Wire.Frame}
    (h : readResponse c = (.frame f, d)) : d.unread < c.unread := by
  fun_induction readResponse c with
  | case1 => cases h
  | case2 c f' rest hpop =>
    cases h
    simpa [unread] using popFrame_length hpop
  | case3 => cases h
  | case4 c _ _ b bs hin ih =>
    have := ih h
    simp [unread, hin] at this ⊢
    omega
  | case5 => cases h
  | case6 => cases h

/-- Reads until the answer to a command is there; answers to others are skipped. -/
def awaitReply (serial : Int) (c : Client) : Reading × Client :=
  match _h : readResponse c with
  | (.frame f, d) => if (f.header.serial : Int) = serial then (.frame f, d) else awaitReply serial d
  | (.pending, d) => (.pending, d)
  | (.fault e, d) => (.fault e, d)
termination_by c.unread
decreasing_by exact readResponse_unread _h

end Client

end FleetProbe
