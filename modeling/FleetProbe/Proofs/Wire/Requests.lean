import FleetProbe.Proofs.Wire.Ranges
import FleetProbe.Proofs.Wire.RoundTrip
/-!
Requests on the wire. A request can be written exactly when its lengths and numbers fit their
fields. Its bytes are a frame like any other, so the lengths in its header tell a reader where key
and value stand and where the next request begins.
-/

namespace FleetProbe.Wire

/-- A command as it is asked for, with any key, any value and any whole numbers. -/
inductive Request where
  | get (key : Bytes) (serial : Int)
  | set (key value : Bytes) (ttl serial : Int)
  deriving DecidableEq, Repr

namespace Request

def command : Request → Except CommandFault Command
  | get key serial => Payload.get ⟨.bytes key, .bytes [], none⟩ serial
  | set key value ttl serial => Payload.set ⟨.bytes key, .bytes value, some ttl⟩ serial

/-- Builds the command and writes it. -/
def encode (r : Request) : Except CommandFault Bytes := r.command.bind Command.encode

/-- The length of the key has 16 bits, that of the body and the serial 32, the time to live 64. -/
def Fits : Request → Prop
  | get key serial => key.length ≤ 0xffff ∧ 0 ≤ serial ∧ serial < 0x100000000
  | set key value ttl serial =>
    key.length ≤ 0xffff ∧ 8 + key.length + value.length < 0x100000000 ∧
      (0 ≤ ttl ∧ ttl < 0x10000000000000000) ∧ 0 ≤ serial ∧ serial < 0x100000000

/-- A request in the parts of a frame. -/
def frame : Request → Frame
  | get key serial =>
    { header := ⟨requestMagic, 0x00, key.length, 0, 0, 0, key.length, serial.toNat, 0⟩
      extra := [], key, value := [] }
  | set key value ttl serial =>
    { header := ⟨requestMagic, 0x01, key.length, 8, 0, 0, 8 + key.length + value.length,
        serial.toNat, 0⟩
      extra := Bytes.ofNat 8 ttl.toNat, key, value }

/-- The request that a frame holds. A key is read without extras, and stored with a time to live
of eight bytes. -/
def ofFrame? (f : Frame) : Option Request :=
  if f.header.opcode = 0x00 ∧ f.extra = [] ∧ f.value = [] then some (.get f.key f.header.serial)
  else if f.header.opcode = 0x01 ∧ f.extra.length = 8 then
    some (.set f.key f.value (Bytes.toNat f.extra) f.header.serial)
  else none

/-- Reads the request at the front: the header, then the body by the lengths in it. -/
def read? (bs : Bytes) : Option (Request × Bytes) :=
  let f := Frame.decode bs
  if bs.length < headerSize ∨ bs.length < f.length ∨ f.header.magic ≠ requestMagic ∨
      ¬ f.header.Consistent then none
  else (ofFrame? f).map fun r => (r, bs.drop f.length)

/-- Reads requests while there are bytes left. -/
def splitFrom : (fuel : Nat) → Bytes → Option (List Request)
  | _, [] => some []
  | 0, _ :: _ => none
  | fuel + 1, b :: bs =>
    match read? (b :: bs) with
    | none => none
    | some (r, rest) => (splitFrom fuel rest).map (r :: ·)

/-- The requests that stand side by side; every one of them takes a byte at least. -/
def split (bs : Bytes) : Option (List Request) := splitFrom bs.length bs

end Request

/-- Fields that all fit are written one after the other. -/
theorem writeFields?_eq (fields : List (Nat × Int))
    (h : ∀ f ∈ fields, 0 ≤ f.2 ∧ f.2 < (Nat.pow 256 f.1 : Nat)) :
    writeFields? fields = some (Bytes.ofNats (fields.map fun f => (f.1, f.2.toNat))) := by
  induction fields with
  | nil => rfl
  | cons f fields ih =>
    obtain ⟨width, n⟩ := f
    obtain ⟨hhead, htail⟩ := List.forall_mem_cons.mp h
    rw [writeFields?, writeField?, if_pos hhead, ih htail]
    simp [Bytes.ofNats]

theorem Command.encode_eq {c : Command} {h : ResponseHeader}
    (hfields : c.header.fields = h.fields.map fun f => (f.1, (f.2 : Int))) (hfits : h.Fits) :
    c.encode = .ok (h.encode ++ c.body) := by
  have hall : ∀ f ∈ c.header.fields, 0 ≤ f.2 ∧ f.2 < (Nat.pow 256 f.1 : Nat) := by
    intro f hf
    rw [hfields] at hf
    obtain ⟨g, hg, rfl⟩ := List.mem_map.mp hf
    exact ⟨Int.natCast_nonneg _, Int.ofNat_lt.mpr (hfits g hg)⟩
  have hrow : c.header.fields.map (fun f => (f.1, f.2.toNat)) = h.fields := by
    rw [hfields, List.map_map]
    exact List.map_id' h.fields
  rw [encode, encode?, RequestHeader.encode?, writeFields?_eq _ hall, hrow,
    ResponseHeader.encode_eq]
  rfl

theorem Command.encode_error {c : Command} (h : ¬ ∃ bs, c.encode = .ok bs) :
    c.encode = .error .outOfRange := by
  unfold encode at h ⊢
  cases hc : c.encode? with
  | none => rfl
  | some bs => exact absurd ⟨bs, by rw [hc]⟩ h

namespace Request

theorem frame_proper {r : Request} (h : r.Fits) : r.frame.Proper := by
  cases r with
  | get key serial =>
    obtain ⟨hkey, hlow, hhigh⟩ := h
    refine ⟨?_, rfl, rfl, by simp [frame]⟩
    simp only [frame, ResponseHeader.Fits, ResponseHeader.fields, requestMagic,
      List.forall_mem_cons, List.not_mem_nil, false_implies, implies_true, and_true]
    omega
  | set key value ttl serial =>
    obtain ⟨hkey, hbody, -, hlow, hhigh⟩ := h
    refine ⟨?_, Bytes.length_ofNat _ _, rfl, rfl⟩
    simp only [frame, ResponseHeader.Fits, ResponseHeader.fields, requestMagic,
      List.forall_mem_cons, List.not_mem_nil, false_implies, implies_true, and_true]
    omega

theorem frame_magic (r : Request) : r.frame.header.magic = requestMagic := by
  cases r <;> rfl

theorem encode_of_command {r : Request} {c : Command} (h : r.command = .ok c) :
    r.encode = c.encode := by
  rw [encode, h]
  generalize Command.encode = write
  rfl

theorem command_get (key : Bytes) (serial : Int) :
    command (.get key serial) = .ok (.get key serial) := rfl

theorem command_set (key value : Bytes) {ttl : Int} (serial : Int)
    (h : 0 ≤ ttl ∧ ttl < 0x10000000000000000) :
    command (.set key value ttl serial) = .ok (.set key value ttl.toNat serial) := by
  simp only [command, Payload.set, Content.bytes?, Option.bind_some, Command.ttl?, if_pos h]

theorem encode_eq {r : Request} (h : r.Fits) : r.encode = .ok r.frame.encode := by
  have hfits := (frame_proper h).fits
  cases r with
  | get key serial =>
    obtain ⟨-, hlow, -⟩ := h
    have hfields : (Command.get key serial).header.fields =
        (frame (.get key serial)).header.fields.map fun f => (f.1, (f.2 : Int)) := by
      have hserial : (serial.toNat : Int) = serial := Int.toNat_of_nonneg hlow
      simp only [frame, Command.header, RequestHeader.fields, RequestHeader.bodyLength,
        ResponseHeader.fields, List.map_cons, List.map_nil, hserial]
      simp
    rw [encode_of_command (command_get key serial), Command.encode_eq hfields hfits]
    simp [Frame.encode, frame, Command.body]
  | set key value ttl serial =>
    obtain ⟨-, -, httl, hlow, -⟩ := h
    have hfields : (Command.set key value ttl.toNat serial).header.fields =
        (frame (.set key value ttl serial)).header.fields.map fun f => (f.1, (f.2 : Int)) := by
      have hserial : (serial.toNat : Int) = serial := Int.toNat_of_nonneg hlow
      have hbody : (key.length : Int) + (8 : Nat) + value.length =
          (8 + key.length + value.length : Nat) := by omega
      simp only [frame, Command.header, RequestHeader.fields, RequestHeader.bodyLength,
        ResponseHeader.fields, Command.setExtraLength, List.map_cons, List.map_nil, hserial, hbody]
      simp
    rw [encode_of_command (command_set key value serial httl), Command.encode_eq hfields hfits]
    simp [Frame.encode, frame, Command.body, Command.setExtraLength]

theorem encode_eq_error {r : Request} (h : ¬ r.Fits) : r.encode = .error .outOfRange := by
  cases r with
  | get key serial =>
    rw [encode_of_command (command_get key serial)]
    apply Command.encode_error
    intro hok
    obtain ⟨hkey, hserial⟩ := (Command.get_encode_iff key serial).mp hok
    exact h ⟨by omega, hserial⟩
  | set key value ttl serial =>
    by_cases httl : 0 ≤ ttl ∧ ttl < 0x10000000000000000
    · rw [encode_of_command (command_set key value serial httl)]
      apply Command.encode_error
      intro hok
      obtain ⟨hkey, hbody, hserial⟩ :=
        (Command.set_encode_iff key value ttl.toNat serial).mp hok
      rw [Command.setExtraLength] at hbody
      exact h ⟨by omega, by omega, httl, hserial⟩
    · simp only [encode, command, Payload.set, Content.bytes?, Option.bind_some, Command.ttl?,
        if_neg httl, Except.bind]

theorem fits_of_encode {r : Request} {bs : Bytes} (h : r.encode = .ok bs) : r.Fits := by
  by_contra hf
  rw [encode_eq_error hf] at h
  cases h

theorem encode_eq_frame {r : Request} {bs : Bytes} (h : r.encode = .ok bs) :
    bs = r.frame.encode := by
  rw [encode_eq (fits_of_encode h)] at h
  exact (Except.ok.inj h).symm

theorem ofFrame?_frame {r : Request} (h : r.Fits) : ofFrame? r.frame = some r := by
  cases r with
  | get key serial =>
    obtain ⟨-, hlow, -⟩ := h
    have hserial : (serial.toNat : Int) = serial := Int.toNat_of_nonneg hlow
    simp only [ofFrame?, frame, hserial, and_self, if_true]
  | set key value ttl serial =>
    obtain ⟨-, -, ⟨hfirst, hlast⟩, hlow, -⟩ := h
    have hserial : (serial.toNat : Int) = serial := Int.toNat_of_nonneg hlow
    have hseconds : (Bytes.toNat (Bytes.ofNat 8 ttl.toNat) : Int) = ttl := by
      rw [Bytes.toNat_ofNat _ _ (by omega), Int.toNat_of_nonneg hfirst]
    simp [ofFrame?, frame, hseconds, hserial]

/-- The command that is built has the body of the frame in its header. -/
theorem bodyLength_command {r : Request} (h : r.Fits) : ∃ c, r.command = .ok c ∧
    ((headerSize + r.frame.header.bodyLength : Nat) : Int) = headerSize + c.header.bodyLength := by
  cases r with
  | get key serial =>
    refine ⟨.get key serial, command_get key serial, ?_⟩
    simp [frame, Command.header, RequestHeader.bodyLength]
  | set key value ttl serial =>
    obtain ⟨-, -, httl, -⟩ := h
    refine ⟨.set key value ttl.toNat serial, command_set key value serial httl, ?_⟩
    simp only [frame, Command.header, RequestHeader.bodyLength, Command.setExtraLength]
    omega

/-- A written request is read back from the front of what holds it. -/
theorem read?_append {r : Request} {bs : Bytes} (h : r.encode = .ok bs) (rest : Bytes) :
    read? (bs ++ rest) = some (r, rest) := by
  have hfits := fits_of_encode h
  have hproper := frame_proper hfits
  obtain rfl := encode_eq_frame h
  have hlength := hproper.length_encode
  have hsize : headerSize ≤ r.frame.length := Nat.le_add_right _ _
  rw [read?, hproper.decode_encode, if_neg, ofFrame?_frame hfits, ← hlength, List.drop_left]
  · rfl
  · rintro (h | h | h | h)
    · rw [List.length_append] at h
      omega
    · rw [List.length_append] at h
      omega
    · exact h (frame_magic r)
    · exact h hproper.consistent

theorem splitFrom_flatten {rs : List Request} {bss : List Bytes}
    (h : List.Forall₂ (fun r bs => r.encode = .ok bs) rs bss) (fuel : Nat)
    (hfuel : bss.flatten.length ≤ fuel) : splitFrom fuel bss.flatten = some rs := by
  induction h generalizing fuel with
  | nil => cases fuel <;> rfl
  | @cons r bs rs bss hr _ ih =>
    -- A request has a header at least, so the fuel lasts.
    have hread := read?_append hr bss.flatten
    have hpos : 24 ≤ bs.length := by
      rw [encode_eq_frame hr, (frame_proper (fits_of_encode hr)).length_encode]
      exact Nat.le_add_right _ _
    obtain ⟨b, tail, rfl⟩ : ∃ b tail, bs = b :: tail :=
      List.exists_cons_of_length_pos (by omega)
    rw [List.flatten_cons, List.length_append] at hfuel
    obtain ⟨fuel, rfl⟩ : ∃ k, fuel = k + 1 := ⟨fuel - 1, by omega⟩
    rw [List.flatten_cons, List.cons_append]
    rw [List.cons_append] at hread
    rw [splitFrom, hread]
    simp only [ih fuel (by omega), Option.map_some]

/-- **Requests are written exactly.** One can be written if and only if it fits, and is out of
range otherwise. Its bytes are as many as its header says; they are read back as the same request
wherever they stand in front, so no two requests are written alike, and requests written one after
the other are told apart again. -/
theorem encoding_exact :
    (∀ r : Request, (∃ bs, r.encode = .ok bs) ↔ r.Fits) ∧
    (∀ r : Request, ¬ r.Fits → r.encode = .error .outOfRange) ∧
    (∀ (r : Request) (bs : Bytes), r.encode = .ok bs →
      (∃ c, r.command = .ok c ∧ (bs.length : Int) = headerSize + c.header.bodyLength) ∧
      ∀ rest, read? (bs ++ rest) = some (r, rest)) ∧
    (∀ (r s : Request) (bs : Bytes), r.encode = .ok bs → s.encode = .ok bs → r = s) ∧
    ∀ (rs : List Request) (bss : List Bytes),
      List.Forall₂ (fun r bs => r.encode = .ok bs) rs bss → split bss.flatten = some rs := by
  refine ⟨fun r => ⟨fun ⟨bs, h⟩ => fits_of_encode h, fun h => ⟨_, encode_eq h⟩⟩,
    fun r => encode_eq_error, fun r bs h => ⟨?_, read?_append h⟩, fun r s bs hr hs => ?_,
    fun rs bss h => splitFrom_flatten h _ (Nat.le_refl _)⟩
  · have hfits := fits_of_encode h
    rw [encode_eq_frame h, (frame_proper hfits).length_encode, Frame.length]
    exact bodyLength_command hfits
  · have hboth := read?_append hr []
    rw [read?_append hs []] at hboth
    cases hboth
    rfl

/-- A value is stored for a hundred seconds. -/
def storing : Request := .set [0x74, 0x65, 0x73, 0x74] [0x76, 0x61, 0x6c, 0x75, 0x65] 100 0

def storingBytes : Bytes :=
  [0x80, 0x01, 0, 4, 8, 0, 0, 0, 0, 0, 0, 0x11, 0, 0, 0, 0, 0, 0, 0, 0, 0, 0, 0, 0,
    0, 0, 0, 0, 0, 0, 0, 0x64, 0x74, 0x65, 0x73, 0x74, 0x76, 0x61, 0x6c, 0x75, 0x65]

/-- The same key is read. -/
def reading : Request := .get [0x74, 0x65, 0x73, 0x74] 7

def readingBytes : Bytes :=
  [0x80, 0x00, 0, 4, 0, 0, 0, 0, 0, 0, 0, 4, 0, 0, 0, 7, 0, 0, 0, 0, 0, 0, 0, 0,
    0x74, 0x65, 0x73, 0x74]

theorem storing_reading_told_apart :
    storing.encode = .ok storingBytes ∧ reading.encode = .ok readingBytes ∧
    split (storingBytes ++ readingBytes) = some [storing, reading] ∧
    read? (storingBytes ++ readingBytes) = some (storing, readingBytes) ∧
    ¬ (Request.get [] (-1)).Fits ∧ encode (.get [] (-1)) = .error .outOfRange := by
  obtain ⟨-, hrefused, hread, -, hsplit⟩ := encoding_exact
  have hstoring : storing.encode = .ok storingBytes := by decide +kernel
  have hreading : reading.encode = .ok readingBytes := by decide +kernel
  have hbelow : ¬ (Request.get [] (-1)).Fits := fun h => absurd h.2.1 (by decide)
  exact ⟨hstoring, hreading, hsplit [storing, reading] _ (.cons hstoring (.cons hreading .nil)),
    (hread storing _ hstoring).2 _, hbelow, hrefused _ hbelow⟩

end Request

end FleetProbe.Wire
