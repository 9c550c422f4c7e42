import FleetProbe.Proofs.Client.Reading
/-!
Calls on one connection that bytes reach in any pieces, at any times, until the stream ends. A call
that waits can be given up, and another one begun. Whatever the order, the frames taken are those
that a walk of all the bytes finds.
-/

namespace FleetProbe.Client

open Wire Wire.Frame

/-- A client and the calls made on it so far. -/
structure Conversation where
  client : Client := {}
  /-- The call that waits for more bytes. -/
  waiting : Option Call := none
  /-- Every frame taken off the stream. -/
  taken : List Frame := []
  /-- Calls that are over, each with what it came to. -/
  answers : List (Call × Reading) := []
  deriving DecidableEq, Repr

namespace Conversation

inductive Event where
  | feed (bs : Bytes)
  | finish
  /-- A call begins. Only one is under way at a time. -/
  | call (k : Call)
  /-- The call that waits looks at what has arrived. -/
  | wake
  /-- The call that waits is given up. -/
  | cancel
  deriving DecidableEq, Repr

/-- Lets a call go as far as the bytes allow. -/
def go (s : Conversation) (k : Call) : Conversation :=
  let (r, d) := serve k s.client
  let s := { s with client := d, taken := s.taken ++ popped k s.client }
  match r with
  | .pending => { s with waiting := some k }
  | r => { s with waiting := none, answers := s.answers ++ [(k, r)] }

def step (s : Conversation) : Event → Conversation
  | .feed bs =>
    if s.client.link.ended then s
    else { s with client := { s.client with link := s.client.link.receive bs } }
  | .finish => { s with client := { s.client with link := s.client.link.finish } }
  | .call k =>
    match s.waiting with
    | none => s.go k
    | some _ => s
  | .wake =>
    match s.waiting with
    | none => s
    | some k => s.go k
  | .cancel => { s with waiting := none }

def run (s : Conversation) (events : List Event) : Conversation := events.foldl step s

/-- All the bytes of a stream, up to its end. -/
def delivered : List Event → Bytes
  | [] => []
  | .feed bs :: events => bs ++ delivered events
  | .finish :: _ => []
  | _ :: events => delivered events

/-- The frames taken account for the stream so far: they were popped off its front, the client
holds what is left, and a fault was found only where no frame can follow. -/
structure Accounts (stream : Bytes) (s : Conversation) : Prop where
  pops : Pops stream s.taken s.client.rest
  intact : s.client.link.readFault = none
  answered : ∀ k f, (k, .frame f) ∈ s.answers → f ∈ s.taken ∧ k.wants f = true
  faults : ∀ k e, (k, .fault e) ∈ s.answers → Ends s.client.rest s.client.link.ended e

theorem go_client (s : Conversation) (k : Call) : (s.go k).client = (serve k s.client).2 := by
  unfold go
  rcases serve k s.client with ⟨r, d⟩
  cases r <;> rfl

theorem go_taken (s : Conversation) (k : Call) :
    (s.go k).taken = s.taken ++ popped k s.client := by
  unfold go
  rcases serve k s.client with ⟨r, d⟩
  cases r <;> rfl

theorem go_answers (s : Conversation) (k : Call) :
    (s.go k).answers = s.answers ++
      if (serve k s.client).1 = .pending then [] else [(k, (serve k s.client).1)] := by
  unfold go
  rcases serve k s.client with ⟨r, d⟩
  cases r <;> simp

theorem mem_go_answers {s : Conversation} {k k' : Call} {r : Reading}
    (h : (k', r) ∈ (s.go k).answers) :
    (k', r) ∈ s.answers ∨ (k' = k ∧ r = (serve k s.client).1) := by
  rw [go_answers] at h
  obtain h | h := List.mem_append.mp h
  · exact .inl h
  · split at h
    · cases h
    · cases List.mem_singleton.mp h
      exact .inr ⟨rfl, rfl⟩

/-- Frames like skipped ones and then a wanted one lead a caller to the frame like the last. -/
theorem upTo_wanted {k : Call} {f : Frame} {skipped gs : List Frame}
    (h : List.Forall₂ Alike (skipped ++ [f]) (gs.take (skipped ++ [f]).length))
    (hs : ∀ g ∈ skipped, k.wants g = false) (hf : k.wants f = true) :
    ∃ g, gs.find? k.wants = some g ∧ Alike f g ∧
      List.Forall₂ Alike (skipped ++ [f]) (gs.takeWhile (!k.wants ·) ++ [g]) := by
  induction skipped generalizing gs with
  | nil =>
    cases gs with
    | nil => cases h
    | cons g gs =>
      obtain ⟨hg, -⟩ := List.forall₂_cons.mp h
      have hw : k.wants g = true := by rw [← Call.wants_alike hg, hf]
      exact ⟨g, by simp [hw], hg, by simpa [hw] using hg⟩
  | cons f' skipped ih =>
    cases gs with
    | nil => cases h
    | cons g' gs =>
      obtain ⟨hg', hrest⟩ := List.forall₂_cons.mp h
      have hw : k.wants g' = false := by
        rw [← Call.wants_alike hg', hs f' List.mem_cons_self]
      obtain ⟨g, hfind, hg, hall⟩ := ih hrest fun x hx => hs x (List.mem_cons_of_mem _ hx)
      exact ⟨g, by simpa [hw] using hfind, hg, by simpa [hw] using ⟨hg', hall⟩⟩

/-- Frames like unwanted ones are unwanted. -/
theorem all_unwanted {k : Call} {fs gs : List Frame} (h : List.Forall₂ Alike fs gs)
    (hs : ∀ f ∈ fs, k.wants f = false) :
    gs.find? k.wants = none ∧ gs.takeWhile (!k.wants ·) = gs := by
  induction h with
  | nil => exact ⟨rfl, rfl⟩
  | @cons f g fs gs hg _ ih =>
    have hw : k.wants g = false := by rw [← Call.wants_alike hg, hs f List.mem_cons_self]
    obtain ⟨hfind, hall⟩ := ih fun x hx => hs x (List.mem_cons_of_mem _ hx)
    simp [hw, hfind, hall]

namespace Accounts

variable {stream : Bytes} {s : Conversation}

/-- A fault is final: a call after it takes nothing. -/
theorem go_rest {k k' : Call} {e : Fault} (h : Accounts stream s)
    (he : (k', .fault e) ∈ s.answers) : (s.go k).client.rest = s.client.rest := by
  obtain ⟨fault, hf⟩ := (h.faults k' e he).extent_eq
  rw [go_client]
  exact ((serve_serves k s.client h.intact).pops.eq_nil hf).2

theorem go (h : Accounts stream s) (k : Call) : Accounts stream (s.go k) := by
  have hs := serve_serves k s.client h.intact
  have hended : (s.go k).client.link.ended = s.client.link.ended := by
    rw [go_client]
    exact hs.ended
  refine ⟨?_, ?_, fun k' f hf => ?_, fun k' e he => ?_⟩
  · rw [go_client, go_taken]
    exact h.pops.trans hs.pops
  · rw [go_client]
    exact hs.intact
  · rw [go_taken]
    obtain hold | ⟨rfl, hr⟩ := mem_go_answers hf
    · obtain ⟨hmem, hw⟩ := h.answered k' f hold
      exact ⟨List.mem_append_left _ hmem, hw⟩
    · have hstops := hs.stops
      rw [← hr] at hstops
      obtain ⟨skipped, htaken, -, hw⟩ := hstops
      rw [htaken]
      exact ⟨by simp, hw⟩
  · obtain hold | ⟨rfl, hr⟩ := mem_go_answers he
    · rw [h.go_rest hold, hended]
      exact h.faults k' e hold
    · have hstops := hs.stops
      rw [← hr] at hstops
      rw [go_client]
      exact hstops.2

theorem feed (h : Accounts stream s) (bs : Bytes) (hopen : s.client.link.ended = false) :
    Accounts (stream ++ bs) (s.step (.feed bs)) := by
  have hrest : (s.step (.feed bs)).client.rest = s.client.rest ++ bs := by
    simp [step, hopen, rest, Link.receive]
  have hlink : (s.step (.feed bs)).client.link = s.client.link.receive bs := by
    simp [step, hopen]
  have hsame : (s.step (.feed bs)).taken = s.taken ∧
      (s.step (.feed bs)).answers = s.answers := by
    simp [step, hopen]
  refine ⟨?_, ?_, fun k f hf => ?_, fun k e he => ?_⟩
  · rw [hsame.1, hrest]
    exact h.pops.append bs
  · rw [hlink]
    exact h.intact
  · rw [hsame.2] at hf
    rw [hsame.1]
    exact h.answered k f hf
  · rw [hsame.2] at he
    have hend := h.faults k e he
    rw [hopen] at hend
    rw [hrest, hlink, Link.receive, hopen]
    exact hend.append bs

theorem finish (h : Accounts stream s) : Accounts stream (s.step .finish) :=
  ⟨h.pops, h.intact, h.answered, fun k e he => (h.faults k e he).finish⟩

/-- Only bytes that arrive add to the stream. -/
theorem step {e : Event} (h : Accounts stream s)
    (he : ∀ bs, e = .feed bs → s.client.link.ended = true) : Accounts stream (s.step e) := by
  cases e with
  | feed bs =>
    rw [Conversation.step, if_pos (he bs rfl)]
    exact h
  | finish => exact h.finish
  | call k =>
    rw [Conversation.step]
    split
    · exact h.go k
    · exact h
  | wake =>
    rw [Conversation.step]
    split
    · exact h
    · exact h.go _
  | cancel => exact ⟨h.pops, h.intact, h.answered, h.faults⟩

theorem go_ended (h : Accounts stream s) (k : Call) :
    (s.go k).client.link.ended = s.client.link.ended := by
  rw [go_client]
  exact (serve_serves k s.client h.intact).ended

/-- Only the end of the stream ends it. -/
theorem step_ended (h : Accounts stream s) {e : Event} (he : e ≠ .finish) :
    (s.step e).client.link.ended = s.client.link.ended := by
  cases e with
  | feed bs =>
    rw [Conversation.step]
    split
    · rfl
    · rfl
  | finish => exact absurd rfl he
  | call k =>
    rw [Conversation.step]
    split
    · exact h.go_ended k
    · rfl
  | wake =>
    rw [Conversation.step]
    split
    · rfl
    · exact h.go_ended _
  | cancel => rfl

/-- After the end of the stream nothing is added to it. -/
theorem run_of_ended (h : Accounts stream s) (hended : s.client.link.ended = true)
    (events : List Event) :
    Accounts stream (s.run events) ∧ (s.run events).client.link.ended = true := by
  induction events generalizing s with
  | nil => exact ⟨h, hended⟩
  | cons e events ih =>
    have hstep : (s.step e).client.link.ended = true := by
      by_cases he : e = .finish
      · rw [he]
        rfl
      · rw [h.step_ended he, hended]
    exact ih (h.step fun _ _ => hended) hstep

theorem run (h : Accounts stream s) (hopen : s.client.link.ended = false) (events : List Event) :
    Accounts (stream ++ delivered events) (s.run events) ∧
      (.finish ∈ events → (s.run events).client.link.ended = true) := by
  -- Bytes that arrive lengthen the stream, so the induction is over any stream so far.
  induction events generalizing stream s with
  | nil =>
    rw [delivered, List.append_nil]
    exact ⟨h, by simp⟩
  | cons e events ih =>
    have hnext (hne : e ≠ .finish) : (s.step e).client.link.ended = false := by
      rw [h.step_ended hne, hopen]
    have hmem (hne : e ≠ .finish) (hm : .finish ∈ e :: events) : .finish ∈ events := by
      cases hm with
      | head => exact absurd rfl hne
      | tail _ hm => exact hm
    cases e with
    | finish =>
      obtain ⟨hacc, hended⟩ := h.finish.run_of_ended rfl events
      rw [delivered, List.append_nil]
      exact ⟨hacc, fun _ => hended⟩
    | feed bs =>
      obtain ⟨hacc, hended⟩ := ih (h.feed bs hopen) (hnext (by simp))
      rw [delivered, ← List.append_assoc]
      exact ⟨hacc, fun hm => hended (hmem (by simp) hm)⟩
    | call k =>
      obtain ⟨hacc, hended⟩ := ih (h.step (e := .call k) (by simp)) (hnext (by simp))
      exact ⟨hacc, fun hm => hended (hmem (by simp) hm)⟩
    | wake =>
      obtain ⟨hacc, hended⟩ := ih (h.step (e := .wake) (by simp)) (hnext (by simp))
      exact ⟨hacc, fun hm => hended (hmem (by simp) hm)⟩
    | cancel =>
      obtain ⟨hacc, hended⟩ := ih (h.step (e := .cancel) (by simp)) (hnext (by simp))
      exact ⟨hacc, fun hm => hended (hmem (by simp) hm)⟩

/-- The frames taken are the first ones of the walk, and the walk of what is left finds the rest. -/
theorem walk (h : Accounts stream s) :
    let whole := Frame.walk stream 0
    List.Forall₂ Alike s.taken (whole.frames.take s.taken.length) ∧
      Pops s.client.rest (whole.frames.drop s.taken.length)
        (stream.drop whole.offset.toNat) := by
  obtain ⟨hpops, he⟩ := walk_pops stream
  exact h.pops.prefix_of hpops he

/-- Where no frame begins what is left, the walk is over. -/
theorem walk_over {fault : FrameFault} (h : Accounts stream s)
    (he : extent s.client.rest = .error fault) :
    s.taken.length = (Frame.walk stream 0).frames.length ∧
      s.client.rest = stream.drop (Frame.walk stream 0).offset.toNat := by
  obtain ⟨hall, hleft⟩ := h.walk
  obtain ⟨hnil, hrest⟩ := hleft.eq_nil he
  have hlen := hall.length_eq
  rw [List.length_take] at hlen
  have hdrop := List.drop_eq_nil_iff.mp hnil
  exact ⟨by omega, hrest.symm⟩

/-- After the end of the stream a call is never left waiting: it takes what remains of the walk up
to the frame it wants, or all of it and faults. -/
theorem go_complete (h : Accounts stream s) (hended : s.client.link.ended = true) (k : Call) :
    let whole := Frame.walk stream 0
    let left := whole.frames.drop s.taken.length
    List.Forall₂ Alike ((s.go k).taken.drop s.taken.length)
        (left.takeWhile (!k.wants ·) ++ (left.find? k.wants).toList) ∧
      ∃ r, (s.go k).answers = s.answers ++ [(k, r)] ∧
        match left.find? k.wants with
        | some g => ∃ f, r = .frame f ∧ Alike f g
        | none => r = .fault (ending (stream.drop whole.offset.toNat)) := by
  intro whole left
  have hs := serve_serves k s.client h.intact
  obtain ⟨-, hleft⟩ := h.walk
  -- What the call popped begins what is left of the walk.
  obtain ⟨hall, hlast⟩ := hs.pops.prefix_of hleft (walk_pops stream).2
  have htaken : (s.go k).taken.drop s.taken.length = popped k s.client := by
    rw [go_taken, List.drop_left]
  rw [htaken, go_answers]
  have hstops := hs.stops
  cases hr : (serve k s.client).1 with
  | frame f =>
    rw [hr] at hstops
    obtain ⟨skipped, hpopped, hskip, hw⟩ := hstops
    rw [hpopped] at hall ⊢
    obtain ⟨g, hfind, hg, hupto⟩ := upTo_wanted hall hskip hw
    refine ⟨?_, .frame f, by simp, ?_⟩
    · rw [hfind]
      exact hupto
    · rw [hfind]
      exact ⟨f, rfl, hg⟩
  | pending =>
    rw [hr] at hstops
    have hnot : s.client.link.ended = false := hs.ended ▸ hstops.2.1
    rw [hended] at hnot
    cases hnot
  | fault e =>
    rw [hr] at hstops
    obtain ⟨hskip, hends⟩ := hstops
    obtain ⟨fault, he⟩ := hends.extent_eq
    obtain ⟨hnil, hrest⟩ := hlast.eq_nil he
    rw [List.take_of_length_le (List.drop_eq_nil_iff.mp hnil)] at hall
    obtain ⟨hfind, hwhile⟩ := all_unwanted hall hskip
    refine ⟨?_, .fault e, by simp, ?_⟩
    · rw [hfind, hwhile]
      simpa using hall
    · rw [hfind, hends.eq_ending, ← hrest]

end Accounts

theorem accounts_start : Accounts [] {} :=
  ⟨.nil [], rfl, by simp, by simp⟩

/-- **Streaming framing is batch framing.** However the stream is cut and the calls are timed and
given up, the frames taken are the first ones of a walk of all its bytes, the client holds exactly
the bytes after them, and a call faults only after the last of them, with the fault of what is
left. Once the stream has ended, the next call takes the frames of the walk up to the one it
wants; if there is none it takes all that are left and faults. -/
theorem taken_eq_walk (events : List Event) (k : Call) :
    let s := run {} events
    let stream := delivered events
    let whole := Frame.walk stream 0
    let left := whole.frames.drop s.taken.length
    let tail := stream.drop whole.offset.toNat
    List.Forall₂ Alike s.taken (whole.frames.take s.taken.length) ∧
    s.client.buffer ++ s.client.link.inbox = stream.drop (Frame.span s.taken) ∧
    (∀ k' f, (k', .frame f) ∈ s.answers → f ∈ s.taken ∧ k'.wants f = true) ∧
    (∀ k' e, (k', .fault e) ∈ s.answers →
      s.taken.length = whole.frames.length ∧ e = ending tail) ∧
    (.finish ∈ events →
      List.Forall₂ Alike ((s.go k).taken.drop s.taken.length)
        (left.takeWhile (!k.wants ·) ++ (left.find? k.wants).toList) ∧
      ∃ r, (s.go k).answers = s.answers ++ [(k, r)] ∧
        match left.find? k.wants with
        | some g => ∃ f, r = .frame f ∧ Alike f g
        | none => r = .fault (ending tail)) := by
  intro s stream whole left tail
  obtain ⟨hacc, hended⟩ := accounts_start.run rfl events
  rw [List.nil_append] at hacc
  refine ⟨hacc.walk.1, hacc.pops.rest_eq, hacc.answered, fun k' e he => ?_, fun hf => ?_⟩
  · have hends := hacc.faults k' e he
    obtain ⟨fault, hext⟩ := hends.extent_eq
    obtain ⟨hlen, hrest⟩ := hacc.walk_over hext
    exact ⟨hlen, hends.eq_ending.trans (by rw [hrest])⟩
  · exact hacc.go_complete (hended hf) k

end Conversation

end FleetProbe.Client
