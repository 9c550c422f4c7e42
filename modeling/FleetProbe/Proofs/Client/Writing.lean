import FleetProbe.Proofs.Client.Exchange
import FleetProbe.Proofs.Client.Tuning
import FleetProbe.Proofs.Wire.Requests
/-!
What a probe writes. Where its commands can be written and there is time for them, it writes one
request for every number it takes: a store for the odd numbers and a read for the even ones.
Whatever its configuration is, a probe that waits has one request left to write at most, and none if
it waits for the second answer.
-/

namespace FleetProbe

namespace Wire

/-- What is stored under a key, for how many seconds. -/
structure Entry where
  key : Bytes
  value : Bytes
  ttl : Int
  deriving DecidableEq, Repr

/-- The request with a number, counted from one on every connection. -/
def Entry.request (x : Entry) (k : Nat) : Request :=
  if k % 2 = 1 then .set x.key x.value x.ttl (k % 0x100000000 : Nat)
  else .get x.key (k % 0x100000000 : Nat)

/-- A payload that can be written spells out an entry. -/
structure Payload.Spells (p : Payload) (x : Entry) : Prop where
  key : p.key.bytes? = some x.key
  value : p.value.bytes? = some x.value
  ttl : p.ttl = some x.ttl
  fits : (Request.set x.key x.value x.ttl 0).Fits

theorem Payload.Writable.spells {p : Payload} (h : p.Writable) : ∃ x, p.Spells x := by
  obtain ⟨key, value, ttl, hkey, hvalue, httl, hshort, hwhole⟩ := p.writable_iff.mp h
  obtain ⟨n, hn, hfits⟩ := Option.bind_eq_some_iff.mp httl
  refine ⟨⟨key, value, n⟩, hkey, hvalue, hn, ?_⟩
  have hnumber := Command.ttl?_eq_some hfits
  rw [Command.setExtraLength] at hwhole
  refine ⟨?_, ?_, hnumber, by decide, by decide⟩
  all_goals dsimp only
  · omega
  · omega

namespace Payload.Spells

variable {p : Payload} {x : Entry}

theorem request_fits (h : p.Spells x) (k : Nat) : (x.request k).Fits := by
  obtain ⟨hkey, hbody, httl, -⟩ := h.fits
  have hnumber : (0 : Int) ≤ (k % 0x100000000 : Nat) ∧
      ((k % 0x100000000 : Nat) : Int) < 0x100000000 := by omega
  unfold Entry.request
  split
  · exact ⟨hkey, hbody, httl, hnumber⟩
  · exact ⟨hkey, hnumber⟩

theorem set_encode (h : p.Spells x) {k : Nat} (hk : k % 2 = 1) :
    ∃ c, p.set (k % 0x100000000 : Nat) = .ok c ∧ c.encode = .ok (x.request k).frame.encode := by
  have hfits := h.request_fits k
  rw [Entry.request, if_pos hk] at hfits ⊢
  obtain ⟨-, -, httl, -⟩ := h.fits
  have hcommand := Request.command_set x.key x.value (k % 0x100000000 : Nat) httl
  refine ⟨_, ?_, (Request.encode_of_command hcommand).symm.trans (Request.encode_eq hfits)⟩
  simp only [Payload.set, h.key, h.value, h.ttl, Option.bind_some, Command.ttl?, if_pos httl]

theorem get_encode (h : p.Spells x) {k : Nat} (hk : k % 2 = 0) :
    ∃ c, p.get (k % 0x100000000 : Nat) = .ok c ∧ c.encode = .ok (x.request k).frame.encode := by
  have hfits := h.request_fits k
  rw [Entry.request, if_neg (by omega)] at hfits ⊢
  have hcommand := Request.command_get x.key (k % 0x100000000 : Nat)
  refine ⟨_, ?_, (Request.encode_of_command hcommand).symm.trans (Request.encode_eq hfits)⟩
  simp only [Payload.get, h.key]

end Payload.Spells

end Wire

namespace Effect

variable {α : Type}

def send? : Effect α → Option Bytes
  | .send bs => some bs
  | _ => none

/-- What is written among some effects. -/
def sends (es : List (Effect α)) : List Bytes := es.filterMap send?

@[simp]
theorem sends_nil : sends ([] : List (Effect α)) = [] := rfl

@[simp]
theorem sends_append (es fs : List (Effect α)) : sends (es ++ fs) = sends es ++ sends fs :=
  List.filterMap_append

end Effect

namespace Exchange

open Effect Wire

variable {α : Type}

/-- The requests of an entry, some of them in a row. -/
def requests (x : Entry) (first n : Nat) : List Bytes :=
  (List.range' first n).map fun k => (x.request k).frame.encode

/-- A reader takes them apart again. -/
theorem split_requests {p : Payload} {x : Entry} (h : p.Spells x) (first n : Nat) :
    Request.split (requests x first n).flatten = some ((List.range' first n).map x.request) := by
  have hencoded : List.Forall₂ (fun r bs => Request.encode r = .ok bs)
      ((List.range' first n).map x.request) (requests x first n) := by
    rw [requests, List.forall₂_map_left_iff, List.forall₂_map_right_iff]
    exact List.forall₂_same.mpr fun k _ => Request.encode_eq (h.request_fits k)
  exact Request.splitFrom_flatten hencoded _ (Nat.le_refl _)

/-- A probe writes the requests from a number on, one for each number it takes. It waits for a store
under an odd number, for a read under an even one, and is over after a read. -/
structure InStep (x : Entry) (first : Nat) (o : Outcome α) : Prop where
  sent : ∃ n, sends o.effects = requests x first n ∧
    ((∀ f, o.progress ≠ .failed f) → o.client.next = first + n)
  waits : ∀ w, o.progress = .waiting w → (w.phase = .set ↔ o.client.next % 2 = 0)
  ended : o.progress = .finished → o.client.next % 2 = 1

namespace InStep

variable {x : Entry} {first : Nat} {o : Outcome α}

theorem quiet {es : List (Effect α)} (h : InStep x first o) (hes : sends es = []) :
    InStep x first (o.after es) := by
  obtain ⟨n, hn, hnext⟩ := h.sent
  refine ⟨⟨n, ?_, hnext⟩, h.waits, h.ended⟩
  rw [Outcome.after, sends_append, hes, List.nil_append, hn]

/-- The request in front of those written later. -/
theorem send (h : InStep x (first + 1) o) :
    InStep x first (o.after [.send (x.request first).frame.encode]) := by
  obtain ⟨n, hn, hnext⟩ := h.sent
  refine ⟨⟨n + 1, ?_, fun hf => ?_⟩, h.waits, h.ended⟩
  · rw [Outcome.after, sends_append, hn, requests, requests, List.range'_succ, List.map_cons]
    rfl
  · have hlast : o.client.next = first + 1 + n := hnext hf
    exact hlast.trans (Nat.add_right_comm first 1 n)

theorem failed {f : Fault} {c : Client} {es : List (Effect α)} (hes : sends es = []) :
    InStep x first ⟨.failed f, c, es⟩ :=
  ⟨⟨0, hes, fun h => absurd rfl (h f)⟩, by simp, by simp⟩

theorem finish {c : Client} (hc : c.next % 2 = 1) :
    InStep x c.next (Exchange.finish c : Outcome α) :=
  ⟨⟨0, rfl, fun _ => rfl⟩, by simp [Exchange.finish], fun _ => hc⟩

end InStep

section Writing

variable [Quantity α] {x : Entry} {s : Setup α}

theorem timeOut_inStep (p : Phase) {c : Client} {first : Nat} {next : Client → Outcome α}
    (hn : InStep x first (next c)) : InStep x first (timeOut s p c next) := by
  unfold timeOut
  dsimp only
  split
  · exact hn.quiet rfl
  · exact .failed rfl

/-- A number that is out belongs to the command before: odd for a store, even for a read. -/
def Phase.Follows (p : Phase) (next : Nat) : Prop := p = .set ↔ next % 2 = 0

theorem answer_inStep (now : α) {w : Waiting α} {c : Client} (hw : w.phase.Follows c.next)
    {next : Client → Outcome α} (hn : ∀ d : Client, d.next = c.next → InStep x c.next (next d)) :
    InStep x c.next (answer s now w c next) := by
  have hkept := (Client.awaitReply_pops w.serial c).2
  unfold answer
  split
  · next d hd =>
    rw [hd] at hkept
    refine ⟨⟨0, rfl, fun _ => hkept⟩, fun v hv => ?_, by simp⟩
    cases hv
    rw [← hkept] at hw
    exact hw
  · next f d hd =>
    rw [hd] at hkept
    exact (hn d hkept).quiet rfl
  · next f d hd =>
    rw [hd] at hkept
    split
    · exact timeOut_inStep _ (hn d hkept)
    · exact .failed rfl
  · exact .failed rfl

omit [Quantity α] in
/-- The command that takes a number is written as the request with it. -/
theorem command_written (hs : s.payload.Spells x) {p : Phase} {c : Client}
    (hp : p.Follows (c.next + 1)) :
    ∃ built : Command, (p = .set → s.payload.set c.takeSerial.1 = .ok built) ∧
      (p = .get → s.payload.get c.takeSerial.1 = .ok built) ∧
      built.encode = .ok (x.request c.next).frame.encode := by
  cases p with
  | set =>
    have hodd : (c.next + 1) % 2 = 0 := hp.mp rfl
    obtain ⟨built, hbuilt, hbytes⟩ := hs.set_encode (k := c.next) (by omega)
    exact ⟨built, fun _ => hbuilt, by simp, hbytes⟩
  | get =>
    have heven : (c.next + 1) % 2 ≠ 0 := fun h => absurd (hp.mpr h) (by decide)
    obtain ⟨built, hbuilt, hbytes⟩ := hs.get_encode (k := c.next) (by omega)
    exact ⟨built, by simp, fun _ => hbuilt, hbytes⟩

theorem command_inStep (hs : s.payload.Spells x) (htime : s.timeout.isOver = false) (now : α)
    {p : Phase} {c : Client} (hp : p.Follows (c.next + 1)) {next : Client → Outcome α}
    (hn : ∀ d : Client, d.next = c.next + 1 → InStep x (c.next + 1) (next d)) :
    InStep x c.next (command s now p c next) := by
  obtain ⟨built, hset, hget, hbytes⟩ := command_written hs hp
  have htaken := hn c.takeSerial.2 rfl
  unfold command
  dsimp only
  split
  · next f hf =>
    cases p with
    | set => cases (hset rfl).symm.trans hf
    | get => cases (hget rfl).symm.trans hf
  · next other hother =>
    obtain rfl : built = other := by
      cases p with
      | set => exact Except.ok.inj ((hset rfl).symm.trans hother)
      | get => exact Except.ok.inj ((hget rfl).symm.trans hother)
    rw [htime, if_neg Bool.false_ne_true]
    split
    · exact .failed rfl
    · next f h _ => cases hbytes.symm.trans h
    · next deadline bs _ h =>
      obtain rfl := Except.ok.inj (hbytes.symm.trans h)
      split
      · split
        · exact (timeOut_inStep p htaken).send
        · exact (InStep.failed rfl).send
      · have hanswer : InStep x c.takeSerial.2.next
            (answer s now ⟨p, c.takeSerial.1, now, deadline⟩ c.takeSerial.2 next) :=
          answer_inStep now hp hn
        exact hanswer.send

theorem following_inStep (hs : s.payload.Spells x) (htime : s.timeout.isOver = false) (now : α)
    {p : Phase} {c : Client} (hp : p.Follows c.next) :
    InStep x c.next (following s now p c) := by
  cases p with
  | set =>
    have heven : c.next % 2 = 0 := hp.mp rfl
    have hget : Phase.get.Follows (c.next + 1) :=
      ⟨fun h => (by cases h), fun h => (by omega)⟩
    refine command_inStep hs htime now hget fun d hd => ?_
    rw [← hd]
    exact .finish (by omega)
  | get =>
    have hodd : c.next % 2 ≠ 0 := fun h => absurd (hp.mpr h) (by decide)
    exact .finish (by omega)

/-- A probe begins with an odd number. -/
theorem begin_inStep (hs : s.payload.Spells x) (htime : s.timeout.isOver = false) (now : α)
    {c : Client} (hc : c.next % 2 = 1) : InStep x c.next (begin s now c) := by
  have hset : Phase.set.Follows (c.next + 1) := ⟨fun _ => by omega, fun _ => rfl⟩
  refine command_inStep hs htime now hset fun d hd => ?_
  rw [← hd] at hset ⊢
  exact following_inStep hs htime now hset

theorem resume_inStep (hs : s.payload.Spells x) (htime : s.timeout.isOver = false) (now : α)
    {w : Waiting α} {c : Client} (hw : w.phase.Follows c.next) :
    InStep x c.next (resume s now w c) := by
  refine answer_inStep now hw fun d hd => ?_
  rw [← hd] at hw ⊢
  exact following_inStep hs htime now hw

theorem expire_inStep (hs : s.payload.Spells x) (htime : s.timeout.isOver = false) (now : α)
    {w : Waiting α} {c : Client} (hw : w.phase.Follows c.next) :
    InStep x c.next (expire s now w c) :=
  timeOut_inStep _ (following_inStep hs htime now hw)

end Writing

/-- How many requests a probe has still to write that waits for the answer to a command. -/
def Phase.owed : Phase → Nat
  | .set => 1
  | .get => 0

def Outcome.owed (o : Outcome α) : Nat :=
  match o.progress with
  | .waiting w => w.phase.owed
  | _ => 0

/-- A probe writes, and has still to write, so many requests at most, and does nothing that is not
its own. -/
structure Outcome.Within (o : Outcome α) (n : Nat) : Prop where
  calm : ∀ e ∈ o.effects, e.Probing
  written : (sends o.effects).length + o.owed ≤ n

namespace Outcome.Within

variable {o : Outcome α} {n : Nat}

theorem quiet {es : List (Effect α)} (h : o.Within n) (hcalm : ∀ e ∈ es, e.Probing)
    (hes : sends es = []) : (o.after es).Within n := by
  refine ⟨List.forall_mem_append.mpr ⟨hcalm, h.calm⟩, ?_⟩
  rw [Outcome.after, sends_append, hes, List.nil_append]
  exact h.written

theorem send (h : o.Within n) (bs : Bytes) : (o.after [.send bs]).Within (n + 1) := by
  refine ⟨List.forall_mem_cons.mpr ⟨trivial, h.calm⟩, ?_⟩
  have hlength : (sends (o.after [.send bs]).effects).length = (sends o.effects).length + 1 := rfl
  have howed : (o.after [.send bs]).owed = o.owed := rfl
  have hwritten := h.written
  omega

theorem failed {f : Fault} {c : Client} {es : List (Effect α)} (hcalm : ∀ e ∈ es, e.Probing)
    (hes : sends es = []) : Within (⟨.failed f, c, es⟩ : Outcome α) n := by
  refine ⟨hcalm, ?_⟩
  rw [hes]
  exact Nat.zero_le n

theorem mono {m : Nat} (h : o.Within n) (hm : n ≤ m) : o.Within m :=
  ⟨h.calm, Nat.le_trans h.written hm⟩

theorem finish (c : Client) : Within (Exchange.finish c : Outcome α) 0 :=
  ⟨by simp [Exchange.finish], Nat.le_refl 0⟩

end Outcome.Within

section Bound

variable [Quantity α] {s : Setup α}

theorem timeOut_within (p : Phase) (c : Client) {n : Nat} {next : Client → Outcome α}
    (hn : (next c).Within n) : (timeOut s p c next).Within n := by
  unfold timeOut
  dsimp only
  split
  · exact hn.quiet (by simp [Effect.Probing]) rfl
  · exact .failed (by simp [Effect.Probing]) rfl

theorem answer_within (now : α) (w : Waiting α) (c : Client) {next : Client → Outcome α}
    (hn : ∀ d, (next d).Within w.phase.owed) : (answer s now w c next).Within w.phase.owed := by
  unfold answer
  split
  · exact ⟨by simp, Nat.le_of_eq (Nat.zero_add _)⟩
  · exact (hn _).quiet (by simp [Effect.Probing]) rfl
  · split
    · exact timeOut_within _ _ (hn _)
    · exact .failed (by simp) rfl
  · exact .failed (by simp) rfl

theorem command_within (now : α) (p : Phase) (c : Client) {next : Client → Outcome α}
    (hn : ∀ d, (next d).Within p.owed) : (command s now p c next).Within (p.owed + 1) := by
  unfold command
  dsimp only
  split
  · exact .failed (by simp) rfl
  · split
    · exact (timeOut_within p _ (hn _)).mono (Nat.le_succ _)
    · split
      · exact .failed (by simp) rfl
      · exact .failed (by simp) rfl
      · split
        · split
          · exact (timeOut_within p _ (hn _)).send _
          · exact (Outcome.Within.failed (by simp) rfl).send _
        · exact (answer_within now ⟨p, _, now, _⟩ _ hn).send _

theorem following_within (now : α) (p : Phase) (c : Client) :
    (following s now p c).Within p.owed := by
  cases p with
  | set => exact command_within now .get c .finish
  | get => exact .finish c

theorem begin_within (now : α) (c : Client) : (begin s now c).Within 2 :=
  command_within now .set c (following_within now .set)

theorem resume_within (now : α) (w : Waiting α) (c : Client) :
    (resume s now w c).Within w.phase.owed :=
  answer_within now w c (following_within now w.phase)

theorem expire_within (now : α) (w : Waiting α) (c : Client) :
    (expire s now w c).Within w.phase.owed :=
  timeOut_within w.phase c (following_within now w.phase c)

end Bound

end Exchange

end FleetProbe
