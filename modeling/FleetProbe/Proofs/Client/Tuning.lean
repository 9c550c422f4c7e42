import Mathlib.Data.List.Nodup
import FleetProbe.Proofs.Client.Reading
/-!
A peer that answers commands in whole frames. Whatever pieces its answers come in, the client takes
them one by one: at any moment the bytes it has not read, and those still to come, are the answers
it has not read. So the frame a command gets is an answer with the number of that command.
-/

namespace FleetProbe.Client

open Wire Wire.Frame

/-- An answer of a peer. -/
structure Answer where
  /-- Which command it answers, counted from the first one of the connection. -/
  command : Nat
  bytes : Bytes
  deriving DecidableEq, Repr

/-- One whole frame with the number of its command in 32 bits. -/
structure Answer.Proper (a : Answer) : Prop where
  whole : extent a.bytes = .ok a.bytes.length
  serial : (decode a.bytes).header.serial = a.command % 0x100000000

/-- A peer that answers the commands it got, each of them once at most, in any order. -/
structure Peer (answers : List Answer) (commands : Nat) : Prop where
  proper : ∀ a ∈ answers, a.Proper
  once : (answers.map Answer.command).Nodup
  known : ∀ a ∈ answers, 1 ≤ a.command ∧ a.command ≤ commands

/-- All that a peer sends. -/
def transcript (answers : List Answer) : Bytes := answers.flatMap Answer.bytes

/-- The bytes not read yet, and those still to come, are some last answers of the peer. -/
def InTune (answers : List Answer) (coming : Bytes) (c : Client) : Prop :=
  ∃ unread, unread <:+ answers ∧ c.rest ++ coming = transcript unread

/-- What the peer answers to a command: there is one answer, and it is this frame. -/
def IsAnswer (answers : List Answer) (n : Nat) (f : Frame) : Prop :=
  (∃ a ∈ answers, a.command = n) ∧ ∀ a ∈ answers, a.command = n → Alike f (decode a.bytes)

/-- Frames taken off a transcript are answers, and the last answers are left. -/
theorem pops_transcript {bs left : Bytes} {fs : List Frame} (h : Pops bs fs left)
    {answers : List Answer} (hproper : ∀ a ∈ answers, a.Proper) (hbs : bs = transcript answers) :
    ∃ unread, unread <:+ answers ∧ left = transcript unread ∧
      ∀ f ∈ fs, ∃ a ∈ answers, Alike f (decode a.bytes) := by
  induction h generalizing answers with
  | nil => exact ⟨answers, List.suffix_rfl, hbs, by simp⟩
  | @cons bs left n f fs hn hf _ ih =>
    cases answers with
    | nil =>
      rw [hbs] at hn
      cases hn
    | cons a others =>
      have ha : a.Proper := hproper a List.mem_cons_self
      have hcons : bs = a.bytes ++ transcript others := hbs
      have hlen : n = a.bytes.length := by
        have hext := extent_append (transcript others) ha.whole
        rw [← hcons, hn] at hext
        exact Except.ok.inj hext
      have hframe : Alike f (decode a.bytes) := by
        rw [hcons] at hf
        exact hf.trans (decode_append _ ha.whole)
      have hdrop : bs.drop n = transcript others := by
        rw [hcons, hlen, List.drop_left]
      obtain ⟨unread, hsuffix, hleft, hall⟩ :=
        ih (fun b hb => hproper b (List.mem_cons_of_mem _ hb)) hdrop
      refine ⟨unread, hsuffix.trans (List.suffix_cons a others), hleft, fun g hg => ?_⟩
      rcases List.mem_cons.mp hg with rfl | hg
      · exact ⟨a, List.mem_cons_self, hframe⟩
      · obtain ⟨b, hb, halike⟩ := hall g hg
        exact ⟨b, List.mem_cons_of_mem _ hb, halike⟩

theorem popFrame_pops {c : Client} {left : Bytes} {f : Frame}
    (h : popFrame c.buffer = .ok (some (f, left))) :
    Pops c.rest [f] (rest { c with buffer := left }) := by
  obtain ⟨n, hn, rfl, rfl⟩ := popFrame_some h
  have hdrop : rest { c with buffer := c.buffer.drop n } = c.rest.drop n := by
    rw [rest, rest, List.drop_append_of_le_length (extent_bounds hn).2]
  rw [hdrop]
  exact .one (extent_append _ hn) (decode_append _ hn).symm

/-- However a connection stands, a read takes one frame or nothing off the unread bytes. -/
theorem readResponse_pops (c : Client) : Pops c.rest (popped .read c) (readResponse c).2.rest := by
  cases hfault : c.link.readFault with
  | none => exact (readResponse_serves c hfault).pops
  | some fault =>
    rw [popped]
    unfold readResponse
    cases hpop : popFrame c.buffer with
    | error magic => exact .nil _
    | ok found =>
      cases found with
      | none =>
        simp only [hfault]
        exact .nil _
      | some found => exact popFrame_pops hpop

theorem readResponse_next (c : Client) : (readResponse c).2.next = c.next := by
  fun_induction readResponse c with
  | case1 => rfl
  | case2 => rfl
  | case3 => rfl
  | case4 c _ _ b bs _ ih => exact ih
  | case5 => rfl
  | case6 => rfl

/-- Waiting for an answer takes frames off the front and no number. -/
theorem awaitReply_pops (serial : Int) (c : Client) :
    Pops c.rest (taken serial c) (awaitReply serial c).2.rest ∧
      (awaitReply serial c).2.next = c.next := by
  have hread {c d : Client} {r : Reading} (hr : readResponse c = (r, d)) :
      Pops c.rest (popped .read c) d.rest ∧ d.next = c.next := by
    have hpops := readResponse_pops c
    have hnext := readResponse_next c
    rw [hr] at hpops hnext
    exact ⟨hpops, hnext⟩
  fun_induction awaitReply serial c with
  | case1 c f d hr hf =>
    obtain ⟨hpops, hnext⟩ := hread hr
    simp only [popped, hr] at hpops
    rw [taken_of_frame hr, if_pos hf]
    exact ⟨hpops, hnext⟩
  | case2 c f d hr hf ih =>
    obtain ⟨hpops, hnext⟩ := hread hr
    simp only [popped, hr] at hpops
    rw [taken_of_frame hr, if_neg hf]
    exact ⟨hpops.trans ih.1, ih.2.trans hnext⟩
  | case3 c d hr =>
    obtain ⟨hpops, hnext⟩ := hread hr
    simp only [popped, hr] at hpops
    rw [taken_of_ne fun f e he => by rw [hr] at he; cases he]
    exact ⟨hpops, hnext⟩
  | case4 c e d hr =>
    obtain ⟨hpops, hnext⟩ := hread hr
    simp only [popped, hr] at hpops
    rw [taken_of_ne fun f e he => by rw [hr] at he; cases he]
    exact ⟨hpops, hnext⟩

theorem awaitReply_frame {serial : Int} {c d : Client} {f : Frame}
    (h : awaitReply serial c = (.frame f, d)) :
    f ∈ taken serial c ∧ (f.header.serial : Int) = serial := by
  fun_induction awaitReply serial c with
  | case1 c g e hr hg =>
    cases h
    rw [taken_of_frame hr, if_pos hg]
    exact ⟨List.mem_singleton_self _, hg⟩
  | case2 c g e hr hg ih =>
    obtain ⟨hmem, hserial⟩ := ih h
    rw [taken_of_frame hr, if_neg hg]
    exact ⟨List.mem_cons_of_mem _ hmem, hserial⟩
  | case3 => cases h
  | case4 => cases h

namespace InTune

variable {answers : List Answer} {coming : Bytes} {c : Client}

theorem receive {bs : Bytes} (h : InTune answers (bs ++ coming) c) :
    InTune answers coming { c with link := c.link.receive bs } := by
  obtain ⟨unread, hsuffix, hrest⟩ := h
  refine ⟨unread, hsuffix, ?_⟩
  rw [← hrest]
  simp only [rest, Link.receive, List.append_assoc]

theorem of_rest {d : Client} (h : InTune answers coming c) (hrest : d.rest = c.rest) :
    InTune answers coming d := by
  unfold InTune
  rw [hrest]
  exact h

/-- Waiting for an answer keeps in tune, and the frame it brings is the answer to the command with
the number waited for. -/
theorem await (h : InTune answers coming c) {commands : Nat} (hpeer : Peer answers commands)
    (hfew : commands < 0x100000000) (n : Nat) :
    InTune answers coming (awaitReply (n % 0x100000000 : Nat) c).2 ∧
      ∀ f d, awaitReply (n % 0x100000000 : Nat) c = (.frame f, d) → n < 0x100000000 →
        IsAnswer answers n f := by
  obtain ⟨unread, hsuffix, hrest⟩ := h
  have hpops := (awaitReply_pops (n % 0x100000000 : Nat) c).1.append coming
  obtain ⟨left, hleft, hbytes, hheard⟩ :=
    pops_transcript hpops (fun a ha => hpeer.proper a (hsuffix.mem ha)) hrest
  refine ⟨⟨left, hleft.trans hsuffix, hbytes⟩, fun f d hf hn => ?_⟩
  obtain ⟨hmem, hserial⟩ := awaitReply_frame hf
  obtain ⟨a, ha, halike⟩ := hheard f hmem
  replace ha := hsuffix.mem ha
  -- Below the bound the number of a command is read off its 32 bits.
  have hcommand : a.command = n := by
    have hbits : a.command % 0x100000000 = n % 0x100000000 := by
      rw [← (hpeer.proper a ha).serial, ← halike.1]
      exact Int.ofNat_inj.mp hserial
    have hbound := (hpeer.known a ha).2
    omega
  refine ⟨⟨a, ha, hcommand⟩, fun b hb hb' => ?_⟩
  have hsame : a = b := List.inj_on_of_nodup_map hpeer.once ha hb (hcommand.trans hb'.symm)
  exact hsame ▸ halike

end InTune

end FleetProbe.Client
