import FleetProbe.Proofs.Client.Counting
/-!
Every answer goes to its own command. Callers take turns on one connection, each for a command of
its own or for a probe, and any of them may run out of time or be given up, with any part of an
answer in the buffer. With fewer commands than there are numbers, a command gets the answer of the
peer to it or none, whatever answers to earlier ones come in between.
-/

namespace FleetProbe

open Wire Client

/-- Who waits on a connection, for the answer to the command with some number. -/
inductive User (α : Type) where
  | execute (n : Nat)
  | probe (s : Exchange.Setup α) (n : Nat) (w : Exchange.Waiting α)

namespace User

variable {α : Type}

def number : User α → Nat
  | execute n => n
  | probe _ n _ => n

/-- A probe looks for the 32 bits of its number. -/
def Looks : User α → Prop
  | execute _ => True
  | probe _ n w => w.serial = n % 0x100000000

end User

/-- A connection and what came of the commands on it. -/
structure Dialogue (α : Type) where
  client : Client := {}
  user : Option (User α) := none
  /-- Frames that callers got, each with the number of its command. -/
  returned : List (Nat × Frame) := []
  /-- What probes counted, each with the number of the command. -/
  counted : List (Nat × Text) := []

namespace Dialogue

open Exchange

variable {α : Type}

inductive Event (α : Type) where
  /-- A caller is given the number of a command to come. -/
  | number
  /-- A caller sends its command and waits for the answer. Only one waits at a time. -/
  | execute (n : Nat)
  | probe (s : Setup α) (now : α)
  | receive (bs : Bytes)
  /-- The peer sends nothing more. -/
  | finish
  | lose (f : FleetProbe.Fault)
  /-- Who waits looks at what has arrived. -/
  | wake (now : α)
  /-- Who waits has run out of time. -/
  | expire (now : α)
  /-- Who waits is given up. -/
  | cancel

/-- The bytes that an event brings. -/
def Event.bytes : Event α → Bytes
  | receive bs => bs
  | _ => []

/-- Numbers given out so far. -/
def commands (d : Dialogue α) : Nat := d.client.next - 1

/-- Lets a caller go as far as the bytes allow. -/
def await (d : Dialogue α) (n : Nat) : Dialogue α :=
  match d.client.awaitReply (n % 0x100000000 : Nat) with
  | (.frame f, c) => { d with client := c, user := none, returned := d.returned ++ [(n, f)] }
  | (.pending, c) => { d with client := c, user := some (.execute n) }
  | (.fault _, c) => { d with client := c, user := none }

/-- Takes in how far a probe went. -/
def settle (d : Dialogue α) (s : Setup α) (number : Text → Nat) (o : Outcome α) : Dialogue α :=
  { d with
    client := o.client
    user := match o.progress with
      | .waiting w => some (.probe s (number w.phase.command) w)
      | _ => none
    counted := d.counted ++ counts number o.effects }

variable [Quantity α]

def step (d : Dialogue α) : Event α → Dialogue α
  | .number => { d with client := d.client.takeSerial.2 }
  | .execute n =>
    if d.user.isNone ∧ 1 ≤ n ∧ n < d.client.next ∧ d.client.link.writeFault = none then d.await n
    else d
  | .probe s now =>
    if d.user.isNone then
      d.settle s (numbering .set d.client.next (d.client.next + 1)) (begin s now d.client)
    else d
  | .receive bs => { d with client := { d.client with link := d.client.link.receive bs } }
  | .finish => { d with client := { d.client with link := d.client.link.finish } }
  | .lose f => { d with client := { d.client with link := d.client.link.lose f } }
  | .wake now =>
    match d.user with
    | none => d
    | some (.execute n) => d.await n
    | some (.probe s n w) =>
      d.settle s (numbering w.phase n d.client.next) (resume s now w d.client)
  | .expire now =>
    match d.user with
    | some (.probe s n w) =>
      d.settle s (numbering w.phase n d.client.next) (expire s now w d.client)
    | _ => { d with user := none }
  | .cancel => { d with user := none }

def run (d : Dialogue α) (events : List (Event α)) : Dialogue α := events.foldl step d

/-- A number that no count of a probe has reached. -/
def upTo (d : Dialogue α) : Nat :=
  match d.user with
  | some (.probe _ n _) => n
  | _ => d.client.next

/-- Everything so far went to its own command. -/
structure Keeps (answers : List Answer) (coming : Bytes) (d : Dialogue α) : Prop where
  tune : d.client.InTune answers coming
  returned : ∀ n f, (n, f) ∈ d.returned → n < d.client.next ∧
    (n < 0x100000000 → IsAnswer answers n f)
  own : ∀ n status, (n, status) ∈ d.counted → n < 0x100000000 → Own answers n status
  ordered : (d.counted.map Prod.fst).Pairwise (· < ·)
  below : ∀ n ∈ d.counted.map Prod.fst, n < d.upTo
  looks : ∀ u, d.user = some u → u.Looks ∧ u.number < d.client.next

namespace Keeps

variable {answers : List Answer} {coming : Bytes} {d : Dialogue α} {commands : Nat}

omit [Quantity α] in
theorem upTo_le (h : Keeps answers coming d) : d.upTo ≤ d.client.next := by
  unfold upTo
  split
  · next s n w hu => exact Nat.le_of_lt (h.looks _ hu).2
  · exact Nat.le_refl _

omit [Quantity α] in
theorem lt_next (h : Keeps answers coming d) {n : Nat} (hn : n ∈ d.counted.map Prod.fst) :
    n < d.client.next :=
  Nat.lt_of_lt_of_le (h.below n hn) h.upTo_le

omit [Quantity α] in
/-- Where only the client changes, and takes no number back, nothing changes for the others. -/
theorem of_client {c : Client} {left : Bytes} (h : Keeps answers coming d)
    (htune : c.InTune answers left) (hnext : d.client.next ≤ c.next) :
    Keeps answers left { d with client := c } := by
  have hupTo : d.upTo ≤ upTo { d with client := c } := by
    unfold upTo
    cases d.user with
    | none => exact hnext
    | some u =>
      cases u with
      | execute n => exact hnext
      | probe s n w => exact Nat.le_refl n
  refine ⟨htune, fun n f hf => ?_, h.own, h.ordered, fun n hn => ?_, fun u hu => ?_⟩
  · obtain ⟨hlt, hown⟩ := h.returned n f hf
    exact ⟨Nat.lt_of_lt_of_le hlt hnext, hown⟩
  · exact Nat.lt_of_lt_of_le (h.below n hn) hupTo
  · obtain ⟨hlooks, hlt⟩ := h.looks u hu
    exact ⟨hlooks, Nat.lt_of_lt_of_le hlt hnext⟩

omit [Quantity α] in
theorem free (h : Keeps answers coming d) :
    Keeps answers coming ({ d with user := none } : Dialogue α) :=
  ⟨h.tune, h.returned, h.own, h.ordered, fun _ hn => h.lt_next hn, by simp⟩

omit [Quantity α] in
theorem await (hpeer : Peer answers commands) (hfew : commands < 0x100000000)
    (h : Keeps answers coming d) {n : Nat} (hn : n < d.client.next) :
    Keeps answers coming (d.await n) := by
  obtain ⟨htune, hanswer⟩ := h.tune.await hpeer hfew n
  have hkept := (awaitReply_pops (n % 0x100000000 : Nat) d.client).2
  unfold Dialogue.await
  split
  · next f c hc =>
    rw [hc] at htune hkept
    have hfree := (h.of_client htune (Nat.le_of_eq hkept.symm)).free
    refine ⟨htune, fun m g hg => ?_, h.own, h.ordered, hfree.below, by simp⟩
    rcases List.mem_append.mp hg with hg | hg
    · exact hfree.returned m g hg
    · cases List.mem_singleton.mp hg
      exact ⟨hkept ▸ hn, hanswer f c hc⟩
  · next c hc =>
    rw [hc] at htune hkept
    have hfree := (h.of_client htune (Nat.le_of_eq hkept.symm)).free
    refine ⟨htune, hfree.returned, h.own, h.ordered, hfree.below, fun u hu => ?_⟩
    cases hu
    exact ⟨trivial, hkept ▸ hn⟩
  · next e c hc =>
    rw [hc] at htune hkept
    exact (h.of_client htune (Nat.le_of_eq hkept.symm)).free

omit [Quantity α] in
theorem settle (h : Keeps answers coming d) (s : Setup α) {number : Text → Nat} {o : Outcome α}
    (ho : Fair answers coming number d.upTo d.client.next o) :
    Keeps answers coming (d.settle s number o) := by
  have hupTo : (d.settle s number o).upTo = o.upTo number := by
    unfold upTo Outcome.upTo Dialogue.settle
    cases o.progress with
    | waiting w => rfl
    | finished => rfl
    | failed f => rfl
  refine ⟨ho.tune, fun n f hf => ?_, fun n status hn => ?_, ?_, fun n hn => ?_, fun u hu => ?_⟩
  · obtain ⟨hlt, hown⟩ := h.returned n f hf
    exact ⟨Nat.lt_of_lt_of_le hlt ho.grows, hown⟩
  · rcases List.mem_append.mp hn with hn | hn
    · exact h.own n status hn
    · exact ho.own n status hn
  · rw [Dialogue.settle, List.map_append, List.pairwise_append]
    refine ⟨h.ordered, ho.ordered, fun m hm n hn => ?_⟩
    exact Nat.lt_of_lt_of_le (h.below m hm) (ho.above n hn)
  · rw [hupTo]
    rw [Dialogue.settle, List.map_append] at hn
    rcases List.mem_append.mp hn with hn | hn
    · exact Nat.lt_of_lt_of_le (h.below n hn) ho.le_upTo
    · exact ho.below n hn
  · simp only [Dialogue.settle] at hu
    split at hu
    · next w hw =>
      cases hu
      obtain ⟨hserial, -, hlt⟩ := ho.waits w hw
      exact ⟨hserial, hlt⟩
    · cases hu

/-- No event makes an answer go astray. -/
theorem step (hpeer : Peer answers commands) (hfew : commands < 0x100000000) {e : Event α}
    (h : Keeps answers (e.bytes ++ coming) d) : Keeps answers coming (d.step e) := by
  cases e with
  | number => exact h.of_client (h.tune.of_rest rfl) (Nat.le_succ _)
  | execute n =>
    simp only [Dialogue.step]
    split
    · next hgo => exact h.await hpeer hfew hgo.2.2.1
    · exact h
  | probe s now =>
    simp only [Dialogue.step]
    split
    · next hfree =>
      have hupTo : d.upTo = d.client.next := by rw [upTo, Option.isNone_iff_eq_none.mp hfree]
      exact h.settle s (hupTo ▸ begin_fair hpeer hfew now h.tune)
    · exact h
  | receive bs => exact h.of_client h.tune.receive (Nat.le_refl _)
  | finish => exact h.of_client (h.tune.of_rest rfl) (Nat.le_refl _)
  | lose f => exact h.of_client (h.tune.of_rest rfl) (Nat.le_refl _)
  | wake now =>
    simp only [Dialogue.step]
    split
    · exact h
    · next n hu => exact h.await hpeer hfew (h.looks _ hu).2
    · next s n w hu =>
      obtain ⟨hserial, hlt⟩ := h.looks _ hu
      have hupTo : d.upTo = n := by rw [upTo, hu]
      refine h.settle s ?_
      rw [hupTo]
      exact resume_fair hpeer hfew now h.tune hserial hlt
  | expire now =>
    simp only [Dialogue.step]
    split
    · next s n w hu =>
      have hupTo : d.upTo = n := by rw [upTo, hu]
      refine h.settle s ?_
      rw [hupTo]
      exact expire_fair hpeer hfew now h.tune (h.looks _ hu).2
    · exact h.free
  | cancel => exact h.free

theorem run (hpeer : Peer answers commands) (hfew : commands < 0x100000000)
    (events : List (Event α)) (h : Keeps answers (events.flatMap Event.bytes ++ coming) d) :
    Keeps answers coming (d.run events) := by
  induction events generalizing d with
  | nil => exact h
  | cons e events ih =>
    rw [List.flatMap_cons, List.append_assoc] at h
    exact ih (h.step hpeer hfew)

end Keeps

omit [Quantity α] in
theorem start_keeps (answers : List Answer) :
    Keeps answers (transcript answers) ({} : Dialogue α) :=
  ⟨⟨answers, List.suffix_rfl, rfl⟩, by simp, by simp, .nil, by simp, by simp⟩

/-- **Answers go to their own commands.** Whenever a caller gets a frame, it is the peer's answer to
its command. What a probe counts for a command is the status of the answer to that command, or that
there was none in time; and as every command is counted once at most, a late answer never is. -/
theorem attributed (events : List (Event α)) (answers : List Answer)
    (hfew : (run ({} : Dialogue α) events).commands < 0x100000000)
    (hpeer : Peer answers (run ({} : Dialogue α) events).commands)
    (hsent : events.flatMap Event.bytes <+: transcript answers) :
    let d := run {} events
    (∀ n f, (n, f) ∈ d.returned → IsAnswer answers n f) ∧
    (∀ n status, (n, status) ∈ d.counted →
      status = timeoutStatus ∨ ∃ f, IsAnswer answers n f ∧ status = (f.status : Text)) ∧
    (d.counted.map Prod.fst).Pairwise (· < ·) := by
  intro d
  obtain ⟨coming, hcoming⟩ := hsent
  have hkeeps : Keeps answers coming d := by
    have hstart := start_keeps (α := α) answers
    rw [← hcoming] at hstart
    exact hstart.run hpeer hfew events
  have hsmall {n : Nat} (hn : n < d.client.next) : n < 0x100000000 :=
    Nat.lt_of_le_of_lt (Nat.le_sub_one_of_lt hn) hfew
  refine ⟨fun n f hf => ?_, fun n status hn => ?_, hkeeps.ordered⟩
  · obtain ⟨hlt, hown⟩ := hkeeps.returned n f hf
    exact hown (hsmall hlt)
  · have hlt := hkeeps.lt_next (List.mem_map_of_mem (f := Prod.fst) hn)
    exact hkeeps.own n status hn (hsmall hlt)

/-- A short answer with some number. -/
def brief (opcode serial : Nat) : Bytes :=
  ResponseHeader.encode ⟨responseMagic, opcode, 0, 0, 0, 0, 0, serial, 0⟩

/-- What a peer says that is late with its first answer. -/
def tardy : List Answer := [⟨1, brief 1 1⟩, ⟨2, brief 0 2⟩, ⟨3, brief 0 3⟩]

/-- A probe whose first command runs out of time; its answer comes in two pieces while the second
command waits. A caller comes next. -/
def overdue : List (Event Rat) :=
  [.probe ⟨⟨"c", "h:1"⟩, ⟨.bytes [107], .bytes [118], some 60⟩, .within (.whole 1)⟩ 0, .expire 1,
    .receive ((brief 1 1).take 10), .wake 1, .receive ((brief 1 1).drop 10 ++ brief 0 2), .wake 1,
    .number, .execute 3, .receive (brief 0 3), .wake 2]

theorem attributed_overdue :
    let d := run {} overdue
    d.counted = [(1, timeoutStatus), (2, "NoError")] ∧
    d.returned = [(3, Frame.decode (brief 0 3))] ∧
    IsAnswer tardy 3 (Frame.decode (brief 0 3)) ∧
    ∃ f, IsAnswer tardy 2 f ∧ ("NoError" : Text) = (f.status : Text) := by
  intro d
  have hwhole : ∀ a ∈ tardy, Frame.extent a.bytes = .ok a.bytes.length := by decide +kernel
  have hserial : ∀ a ∈ tardy,
      (Frame.decode a.bytes).header.serial = a.command % 0x100000000 := by decide +kernel
  have hpeer : Peer tardy d.commands :=
    ⟨fun a ha => ⟨hwhole a ha, hserial a ha⟩, by decide +kernel, by decide +kernel⟩
  obtain ⟨hreturned, hcounted, -⟩ := attributed overdue tardy (by decide +kernel) hpeer
    ⟨[], by decide +kernel⟩
  have hcounts : d.counted = [(1, timeoutStatus), (2, "NoError")] := by decide +kernel
  have hreturns : d.returned = [(3, Frame.decode (brief 0 3))] := by decide +kernel
  refine ⟨hcounts, hreturns, hreturned 3 _ ?_, ?_⟩
  · exact hreturns ▸ List.mem_singleton_self _
  · obtain htimedOut | hanswered := hcounted 2 "NoError" (hcounts ▸ by simp)
    · exact absurd htimedOut (by decide)
    · exact hanswered

end Dialogue

end FleetProbe
