import FleetProbe.Proofs.Catalog.Exact
import FleetProbe.Proofs.Fleet.Turns
import FleetProbe.Proofs.Service.Steps
/-!
The index that each poll of a running service starts from, and what failed polls leave behind. A
poll that failed takes the index back to zero and is counted; one that succeeded hands on the index
it was answered with, unless that went backward.
-/

namespace FleetProbe

open Catalog

/-- A poll of the catalog: the index it starts from, and the answers to its queries so far. -/
structure Poll where
  sent : Int
  answers : List Outcome := []

namespace Poll

/-- Only a query for the services begins a poll. -/
def begun (r : Request) : Option Poll :=
  if r = Listing.servicesRequest r.index then some { sent := r.index } else none

theorem begun_services (previous : Int) :
    begun (Listing.servicesRequest previous) = some { sent := previous } := if_pos rfl

theorem begun_nodes (service : Text) : begun (Listing.nodesRequest service) = none := by
  refine if_neg fun h => ?_
  -- The two paths part at their twentieth character.
  have hpoint := congrArg (fun r => r.path.points[19]?) h
  have hslash : (Listing.nodesRequest service).path.points[19]? = some 0x2f := by
    rw [Listing.nodesRequest]
    exact List.getElem?_append_left (by decide)
  have hletter (index : Int) :
      (Listing.servicesRequest index).path.points[19]? = some 0x73 := by
    rfl
  simp [hslash, hletter] at hpoint

/-- Where the next poll starts from: at zero after a failed query, and else at the index that the
services came with, if one came and it did not go backward. -/
structure Leads (p : Poll) (next : Int) : Prop where
  failed : (∃ o ∈ p.answers, o.Fails) → next = 0
  answered : (∀ o ∈ p.answers, ¬ o.Fails) → ∃ first rest, p.answers = first :: rest ∧
    next = match first.index? with
      | some index => if p.sent ≤ index then index else 0
      | none => 0

theorem leads_failed {p : Poll} {o : Outcome} (ho : o ∈ p.answers) (h : o.Fails) : p.Leads 0 :=
  ⟨fun _ => rfl, fun hnone => absurd h (hnone o ho)⟩

theorem leads_answered {p : Poll} {first : Outcome} {rest : List Outcome} (hsent : 0 ≤ p.sent)
    (hplain : ∀ o ∈ p.answers, ¬ o.Fails) (hanswers : p.answers = first :: rest) :
    p.Leads (first.indexAfter p.sent) := by
  refine ⟨fun ⟨o, ho, hfails⟩ => absurd hfails (hplain o ho), fun _ => ⟨first, rest, hanswers, ?_⟩⟩
  unfold Outcome.indexAfter
  cases first.index? with
  | none => rfl
  | some index =>
    by_cases hle : p.sent ≤ index
    · have hindex : 0 ≤ index := Int.le_trans hsent hle
      simp only [hle, hindex, and_self, if_true]
    · simp only [hle, false_and, if_false]

theorem Leads.nonneg {p : Poll} {next : Int} (h : p.Leads next) (hsent : 0 ≤ p.sent) :
    0 ≤ next := by
  by_cases hfails : ∃ o ∈ p.answers, o.Fails
  · simp [h.failed hfails]
  · obtain ⟨first, rest, -, hnext⟩ := h.answered fun o ho hf => hfails ⟨o, ho, hf⟩
    cases hindex : first.index? with
    | none => simp [hnext, hindex]
    | some index =>
      by_cases hle : p.sent ≤ index
      · simpa [hnext, hindex, hle] using Int.le_trans hsent hle
      · simp [hnext, hindex, hle]

/-- A poll that waits for the answer to another query, and got none before that failed. -/
structure Under (p : Poll) (l : Listing) : Prop where
  plain : ∀ o ∈ p.answers, ¬ o.Fails
  stands : match l with
    | .services previous _ => p.answers = [] ∧ previous = p.sent
    | .nodes found _ _ =>
      ∃ first rest, p.answers = first :: rest ∧ found.index = first.indexAfter p.sent

def answer (p : Poll) (o : Outcome) : Poll := { p with answers := p.answers ++ [o] }

section Under

variable {p : Poll} {l : Listing} {s : Source} {o : Outcome}

theorem answer_plain (h : p.Under l) (ho : ¬ o.Fails) : ∀ a ∈ (p.answer o).answers, ¬ a.Fails := by
  intro a ha
  obtain ha | ha := List.mem_append.mp ha
  · exact h.plain a ha
  · rw [List.mem_singleton.mp ha]
    exact ho

/-- The index found stays that of the first answer. -/
theorem Under.carried (h : p.Under l) (o : Outcome) :
    ∃ first rest, (p.answer o).answers = first :: rest ∧
      l.carried (o.indexAfter l.request.index) = first.indexAfter p.sent := by
  have hstands := h.stands
  cases l with
  | services previous tag =>
    obtain ⟨hnone, rfl⟩ := hstands
    exact ⟨o, [], by rw [answer, hnone]; rfl, rfl⟩
  | nodes found service remaining =>
    obtain ⟨first, rest, hanswers, hindex⟩ := hstands
    exact ⟨first, rest ++ [o], by rw [answer, hanswers]; rfl, hindex⟩

/-- An answer that does not end the poll with a fault takes it on under the same index. -/
theorem Under.step (h : p.Under l) (s : Source) (o : Outcome) :
    (∃ e, (l.step s o).1 = .finish (.error e)) ∨
      (∀ a ∈ (p.answer o).answers, ¬ a.Fails) ∧ ∃ found first rest,
        (p.answer o).answers = first :: rest ∧ found.index = first.indexAfter p.sent ∧
          ((l.step s o).1 = .finish (.ok found) ∨
            ∃ name remaining, (l.step s o).1 = .ask (.nodes found name remaining)) := by
  cases hread : (Query.read s l.request o).1 with
  | error e => exact .inl ⟨e, Listing.step_error hread⟩
  | ok read =>
    obtain ⟨hplain, hindex⟩ := Query.read_ok hread
    obtain ⟨found, hnext, hfound⟩ := Listing.step_ok hread
    obtain ⟨first, rest, hanswers, hcarried⟩ := h.carried o
    have hsame : found.index = first.indexAfter p.sent := by rw [hfound, hindex, hcarried]
    have hstep (t : Listing.Turn) (ht : Listing.askNext found (l.left read.2) = t) :
        (l.step s o).1 = t := hnext.trans ht
    obtain ⟨name, remaining, -, -, hask⟩ | ⟨name, remaining, -, -, hask⟩ | ⟨-, hask⟩ :=
      Listing.askNext_cases found (l.left read.2)
    · exact .inl ⟨_, hstep _ hask⟩
    · exact .inr ⟨answer_plain h hplain, found, first, rest, hanswers, hsame,
        .inr ⟨name, remaining, hstep _ hask⟩⟩
    · exact .inr ⟨answer_plain h hplain, found, first, rest, hanswers, hsame,
        .inl (hstep _ hask)⟩

theorem Under.ask (h : p.Under l) {next : Listing} (hstep : (l.step s o).1 = .ask next) :
    (p.answer o).Under next ∧ ∃ service, next.request = Listing.nodesRequest service := by
  obtain ⟨e, hend⟩ | ⟨hplain, found, first, rest, hanswers, hindex, hend | ⟨name, _, hask⟩⟩ :=
    h.step s o
  · cases hend.symm.trans hstep
  · cases hend.symm.trans hstep
  · cases hask.symm.trans hstep
    exact ⟨⟨hplain, first, rest, hanswers, hindex⟩, name, rfl⟩

theorem Under.found (h : p.Under l) (hsent : 0 ≤ p.sent) {found : Snapshot}
    (hstep : (l.step s o).1 = .finish (.ok found)) : (p.answer o).Leads found.index := by
  obtain ⟨e, hend⟩ | ⟨hplain, found, first, rest, hanswers, hindex, hend | ⟨name, _, hask⟩⟩ :=
    h.step s o
  · cases hend.symm.trans hstep
  · cases hend.symm.trans hstep
    rw [hindex]
    exact leads_answered hsent hplain hanswers
  · cases hask.symm.trans hstep

end Under

end Poll

namespace Catalog.Listing

theorem fails_of_failed {s : Source} {l : Listing} {o : Outcome} {f : Failure}
    (h : (l.step s o).1 = .finish (.error (.failed f))) : o.Fails := by
  by_contra hfails
  by_cases hdeep : o.TooDeep
  · rw [step_error (Query.read_tooDeep s l.request hdeep)] at h
    cases h
  · obtain ⟨found, hnext, -⟩ := step_ok (Query.read_plain s l.request hfails hdeep)
    rw [hnext] at h
    obtain ⟨name, rest, -, -, hask⟩ | ⟨name, rest, -, -, hask⟩ | ⟨-, hask⟩ :=
      askNext_cases found (l.left o.document)
    · rw [hask] at h
      cases h
    · rw [hask] at h
      cases h
    · rw [hask] at h
      cases h

end Catalog.Listing

/-- Polls, newest first: the first starts at zero, and each next one where the one before leads. -/
structure Linked (polls : List Poll) : Prop where
  nonneg : ∀ p ∈ polls, 0 ≤ p.sent
  first : ∀ p ∈ polls.getLast?, p.sent = 0
  links : polls.IsChain fun next p => p.Leads next.sent

/-- An index that the next poll can start from. -/
structure Follows (polls : List Poll) (index : Int) : Prop where
  nonneg : 0 ≤ index
  fresh : polls = [] → index = 0
  leads : ∀ p ∈ polls.head?, p.Leads index

namespace Linked

variable {polls earlier : List Poll} {p : Poll} {index : Int}

theorem push (h : Linked polls) (hindex : Follows polls index) :
    Linked ({ sent := index } :: polls) := by
  refine ⟨fun q hq => ?_, fun q hq => ?_, ?_⟩
  · obtain rfl | hq := List.mem_cons.mp hq
    · exact hindex.nonneg
    · exact h.nonneg q hq
  · cases polls with
    | nil =>
      cases hq
      exact hindex.fresh rfl
    | cons p earlier =>
      rw [List.getLast?_cons_cons] at hq
      exact h.first q hq
  · cases polls with
    | nil => exact .singleton _
    | cons p earlier => exact List.isChain_cons_cons.mpr ⟨hindex.leads p rfl, h.links⟩

/-- An answer to the newest poll is no matter of where it starts. -/
theorem answer (h : Linked (p :: earlier)) (o : Outcome) : Linked (p.answer o :: earlier) := by
  refine ⟨fun q hq => ?_, fun q hq => ?_, ?_⟩
  · obtain rfl | hq := List.mem_cons.mp hq
    · exact h.nonneg p List.mem_cons_self
    · exact h.nonneg q (List.mem_cons_of_mem _ hq)
  · cases earlier with
    | nil =>
      cases hq
      exact h.first p rfl
    | cons p' earlier =>
      rw [List.getLast?_cons_cons] at hq
      exact h.first q (by rwa [List.getLast?_cons_cons])
  · cases earlier with
    | nil => exact .singleton _
    | cons p' earlier =>
      obtain ⟨hleads, hlinks⟩ := List.isChain_cons_cons.mp h.links
      exact List.isChain_cons_cons.mpr ⟨hleads, hlinks⟩

end Linked

namespace Service

variable {α : Type} [Quantity α]

/-- An answer of the catalog belongs to the poll under way. -/
def answered (s : Service α) (e : Event) : List Poll → List Poll
  | p :: earlier =>
    match s.loop, e with
    | .asking _, .answer o => p.answer o :: earlier
    | _, _ => p :: earlier
  | [] => []

/-- The polls after an event, newest first. -/
def record (s : Service α) (now : α) (e : Event) (polls : List Poll) : List Poll :=
  ((queries (s.step now e).outputs).filterMap Poll.begun).reverse ++ s.answered e polls

def pollsAfter (s : Service α) (polls : List Poll) : List (α × Event) → List Poll
  | [] => polls
  | e :: events => (s.step e.1 e.2).service.pollsAfter (s.record e.1 e.2 polls) events

/-- All polls of a run, newest first. -/
def polls (s : Service α) (events : List (α × Event)) : List Poll := s.pollsAfter [] events

/-- Where a service stands with its polls. -/
inductive Stands (s : Service α) (polls : List Poll) : Prop where
  | idle : s.loop = .idle → (∀ shutdown e, s.stage ≠ .stopping shutdown e) → polls = [] →
    s.watch.index = 0 → Stands s polls
  | asleep {deadline : α} : s.loop = .asleep deadline → s.stage = .serving →
    Follows polls s.watch.index → Stands s polls
  | asking {l : Listing} {p : Poll} {earlier : List Poll} : s.loop = .asking l →
    s.stage = .serving → polls = p :: earlier → p.sent = s.watch.index → p.Under l →
    Stands s polls
  | down : s.Down → Stands s polls

omit [Quantity α] in
theorem Stands.upright {s : Service α} {polls : List Poll} (h : Stands s polls) : s.Upright := by
  cases h with
  | idle _ hstage _ _ => exact .inr hstage
  | asleep _ hserving _ => exact .inr (by simp [hserving])
  | asking _ hserving _ _ _ => exact .inr (by simp [hserving])
  | down h => exact .inl h

omit [Quantity α] in
theorem answered_eq {s : Service α} {e : Event} (h : ¬ s.Answered e) (polls : List Poll) :
    s.answered e polls = polls := by
  cases polls with
  | nil => rfl
  | cons p earlier =>
    simp only [answered]
    split
    · next l o hl => exact absurd ⟨l, o, hl, rfl⟩ h
    · rfl

omit [Quantity α] in
theorem Stands.under {s : Service α} {polls : List Poll} {l : Listing} (h : Stands s polls)
    (hl : s.loop = .asking l) :
    ∃ p earlier, polls = p :: earlier ∧ s.stage = .serving ∧ p.sent = s.watch.index ∧
      p.Under l := by
  cases h with
  | idle hloop _ _ _ => cases hl.symm.trans hloop
  | asleep hloop _ _ => cases hl.symm.trans hloop
  | asking hloop hserving hpolls hsent hunder =>
    cases hl.symm.trans hloop
    exact ⟨_, _, hpolls, hserving, hsent, hunder⟩
  | down hdown =>
    obtain hover | ⟨instant, f, hfailed⟩ := hdown.ended
    · cases hl.symm.trans hover
    · cases hl.symm.trans hfailed

omit [Quantity α] in
theorem Stands.unbegun {s : Service α} {polls : List Poll} (h : Stands s polls)
    (hidle : s.stage = .idle) : polls = [] ∧ s.watch.index = 0 := by
  cases h with
  | idle _ _ hnone hindex => exact ⟨hnone, hindex⟩
  | asleep _ hserving _ => cases hidle.symm.trans hserving
  | asking _ hserving _ _ _ => cases hidle.symm.trans hserving
  | down hdown => exact absurd hidle hdown.begun

omit [Quantity α] in
theorem Stands.awaited {s : Service α} {polls : List Poll} {deadline : α} (h : Stands s polls)
    (hl : s.loop = .asleep deadline) : s.stage = .serving ∧ Follows polls s.watch.index := by
  cases h with
  | idle hloop _ _ _ => cases hl.symm.trans hloop
  | asleep _ hserving hfollows => exact ⟨hserving, hfollows⟩
  | asking hloop _ _ _ _ => cases hl.symm.trans hloop
  | down hdown =>
    obtain hover | ⟨instant, f, hfailed⟩ := hdown.ended
    · cases hl.symm.trans hover
    · cases hl.symm.trans hfailed

omit [Quantity α] in
/-- What is done aside leaves the polls where they are. -/
theorem Stands.of_calm {s t : Service α} {polls : List Poll} (h : Stands s polls)
    (hst : Calm s t) : Stands t polls := by
  have hkept (hstage : s.stage ≠ .idle) : t.stage = s.stage :=
    hst.stage.resolve_right fun hidle => hstage hidle.1
  cases h with
  | idle hloop hstage hnone hindex =>
    refine .idle (hst.loop.trans hloop) (fun shutdown e => ?_) hnone (hst.index.trans hindex)
    obtain hsame | ⟨-, ending, hserved⟩ := hst.stage
    · rw [hsame]
      exact hstage shutdown e
    · simp [hserved]
  | asleep hloop hserving hfollows =>
    have hstage := hkept (by simp [hserving])
    exact .asleep (hst.loop.trans hloop) (hstage.trans hserving) (by rwa [hst.index])
  | asking hloop hserving hpolls hsent hunder =>
    have hstage := hkept (by simp [hserving])
    exact .asking (hst.loop.trans hloop) (hstage.trans hserving) hpolls
      (hsent.trans hst.index.symm) hunder
  | down hdown =>
    have hstage := hkept hdown.begun
    exact .down ⟨by rw [hstage]; exact hdown.begun, by rw [hst.loop]; exact hdown.ended⟩

theorem take_stands {t : Service α} {turn : Watch.Turn α} {polls : List Poll}
    (hserving : t.stage = .serving) (hlinked : Linked polls) (hcurrent : turn.Current)
    (hfollows : (∃ wait, turn.stand = .waiting wait) → Follows polls turn.watch.index) (now : α) :
    let next := ((queries (t.take now turn).outputs).filterMap Poll.begun).reverse ++ polls
    Linked next ∧ Stands (t.take now turn).service next := by
  intro next
  obtain ⟨u, hsteady, htake⟩ := take_steady now t turn
  have hqueries := take_queries now t turn
  obtain ⟨fleet, hwatch⟩ := hsteady.watch
  have hindex : u.watch.index = turn.watch.index := by rw [hwatch]
  have hstage : u.stage = .serving := hsteady.stage.trans hserving
  cases hstand : turn.stand with
  | waiting wait =>
    have hfollows := hfollows ⟨wait, hstand⟩
    cases wait with
    | tokens deadline =>
      rw [hstand] at htake hqueries
      have hnext : next = polls := by
        simp only [next, hqueries]
        rfl
      rw [hnext, htake]
      exact ⟨hlinked, .asleep rfl hstage (by rw [hindex]; exact hfollows)⟩
    | catalog previous =>
      have hprevious := hcurrent previous hstand
      rw [hstand] at htake hqueries
      have hnext : next = { sent := turn.watch.index } :: polls := by
        simp only [next, hqueries, List.filterMap_cons, Poll.begun_services, hprevious]
        rfl
      rw [hnext, htake]
      refine ⟨hlinked.push hfollows, .asking rfl hstage rfl hindex.symm ⟨by simp, rfl, ?_⟩⟩
      exact hprevious
  | «over» result =>
    have hnext : next = polls := by
      simp only [next, hqueries, hstand]
      rfl
    rw [hnext]
    refine ⟨hlinked, .down ?_⟩
    rw [hstand] at htake
    cases result with
    | ok found =>
      rw [htake]
      exact tearDown_down now _ u
    | error f =>
      rw [htake]
      exact ⟨by simp [hstage], .inr ⟨now, f, rfl⟩⟩

/-- The answer that ends a poll takes the loop to an index that follows it. -/
theorem receive_follows {w : Watch α} {l : Listing} {source : Source} {o : Outcome}
    {r : Except QueryFault Snapshot} {p : Poll} {earlier : List Poll} (hnonneg : 0 ≤ p.sent)
    (hunder : p.Under l) (hstep : (l.step source o).1 = .finish r) {now : α}
    (hwaits : ∃ wait, (Watch.follow now (w.receive r)).stand = .waiting wait) :
    Follows (p.answer o :: earlier) (Watch.follow now (w.receive r)).watch.index := by
  obtain ⟨wait, hwait⟩ := hwaits
  have hfollows (index : Int) (hleads : (p.answer o).Leads index) :
      Follows (p.answer o :: earlier) index := by
    refine ⟨hleads.nonneg hnonneg, nofun, fun q hq => ?_⟩
    cases hq
    exact hleads
  have hunknown (e : QueryFault) (he : ∀ f, e ≠ .failed f) (hr : r = .error e) : False := by
    rw [hr, Watch.follow_receive_error w now he] at hwait
    cases hwait
  rw [(Watch.follow_onward now (w.receive_current r)).index]
  cases r with
  | error e =>
    cases e with
    | failed f =>
      have hfails := Listing.fails_of_failed hstep
      exact hfollows 0 (Poll.leads_failed (List.mem_append_right _ List.mem_cons_self) hfails)
    | escaped | unencodable | tooDeep => exact (hunknown _ (by simp) rfl).elim
  | ok found =>
    cases hstopping : w.stopping with
    | true =>
      -- The loop is over with a snapshot that comes too late.
      have hover : (Watch.follow now (w.receive (.ok found))).stand = .over (.ok none) := by
        simp [Watch.receive, hstopping, Watch.follow, Watch.Turn.andThen, Watch.round]
      cases hover.symm.trans hwait
    | false =>
      rw [Watch.receive_ok hstopping]
      exact hfollows found.index (hunder.found hnonneg hstep)

theorem step_stands {s : Service α} {polls : List Poll} (hlinked : Linked polls)
    (h : Stands s polls) (now : α) (e : Event) :
    Linked (s.record now e polls) ∧ Stands (s.step now e).service (s.record now e polls) := by
  have hanswered : Linked (s.answered e polls) := by
    cases polls with
    | nil => exact hlinked
    | cons p earlier =>
      simp only [answered]
      split
      · exact hlinked.answer _
      · exact hlinked
  cases step_does h.upright now e with
  | aside hnot hquiet hcalm =>
    have hrecord : s.record now e polls = polls := by
      rw [record, hquiet.queries_eq, answered_eq hnot]
      rfl
    rw [hrecord]
    exact ⟨hlinked, h.of_calm hcalm⟩
  | down hquiet hdown =>
    have hrecord : s.record now e polls = s.answered e polls := by
      rw [record, hquiet.queries_eq]
      rfl
    rw [hrecord]
    exact ⟨hanswered, .down hdown⟩
  | @asks l next o hl he hstep hservice hqueries =>
    subst he
    obtain ⟨p, earlier, rfl, hserving, hsent, hunder⟩ := h.under hl
    obtain ⟨hnext, service, hrequest⟩ := hunder.ask hstep
    have hrecord : s.record now (.answer o) (p :: earlier) = p.answer o :: earlier := by
      rw [record, hqueries, hrequest]
      simp [Poll.begun_nodes, answered, hl]
    rw [hrecord, hservice]
    exact ⟨hlinked.answer o, .asking rfl hserving rfl hsent hnext⟩
  | @takes t turn hbegets hcrew hstage hservice hqueries =>
    rw [record, hqueries, hservice]
    cases hbegets with
    | serve hidle =>
      obtain ⟨rfl, hindex⟩ := h.unbegun hidle
      have hrun := Watch.run_plain s.watch now
      refine take_stands hstage hlinked hrun.current (fun _ => ?_) now
      rw [hrun.index, hindex]
      exact ⟨Int.le_refl 0, fun _ => rfl, nofun⟩
    | tick hl =>
      have hwake := Watch.follow_wake_plain s.watch now
      obtain ⟨hserving, hfollows⟩ := h.awaited hl
      rw [answered_eq (by simp [Answered])]
      refine take_stands (hstage.trans hserving) hlinked hwake.current (fun _ => ?_) now
      rwa [hwake.index]
    | @answer l o r hl hstep =>
      obtain ⟨p, earlier, rfl, hserving, hsent, hunder⟩ := h.under hl
      have hpolls : s.answered (.answer o) (p :: earlier) = p.answer o :: earlier := by
        simp only [answered, hl]
      have honward := Watch.follow_onward now (s.watch.receive_current r)
      rw [hpolls]
      exact take_stands (hstage.trans hserving) (hlinked.answer o) honward.current
        (receive_follows (hlinked.nonneg p List.mem_cons_self) hunder hstep) now

theorem pollsAfter_stands {s : Service α} {polls : List Poll} (hlinked : Linked polls)
    (h : Stands s polls) (events : List (α × Event)) :
    Linked (s.pollsAfter polls events) ∧ Stands (s.run events) (s.pollsAfter polls events) := by
  induction events generalizing s polls with
  | nil => exact ⟨hlinked, h⟩
  | cons e events ih =>
    obtain ⟨hlinked', h'⟩ := step_stands hlinked h e.1 e.2
    exact ih hlinked' h'

/-- The poll under way gets an answer that fails it. -/
def Flops (s : Service α) (e : Event) : Prop :=
  ∃ l o, s.loop = .asking l ∧ e = .answer o ∧ o.Fails

/-- Nothing but a failed poll is counted. -/
theorem step_counts {s : Service α} (hs : s.Upright) (now : α) {e : Event} (h : ¬ s.Flops e) :
    (s.step now e).service.crew.metrics.discoveryFailures =
      s.crew.metrics.discoveryFailures := by
  cases step_does hs now e with
  | aside _ hquiet _ => exact hquiet.counts
  | down hquiet _ => exact hquiet.counts
  | asks _ _ _ hservice _ =>
    rw [hservice]
    rfl
  | @takes t turn hbegets hcrew _ hservice _ =>
    have hnone : turn.failures = 0 := by
      cases hbegets with
      | serve _ => exact (Watch.run_plain s.watch now).failures
      | tick _ => exact (Watch.follow_wake_plain s.watch now).failures
      | @answer l o r hl hstep =>
        have hfailed (f : Failure) : r ≠ .error (.failed f) := by
          rintro rfl
          exact h ⟨l, o, hl, rfl, Listing.fails_of_failed hstep⟩
        have honward := Watch.follow_onward now (s.watch.receive_current r)
        exact honward.failures.trans (Watch.receive_failures hfailed)
    rw [hservice, take_counts, hnone, hcrew]
    rfl

/-- A service after a failed poll: every probe and every task is as it was. -/
structure Shrugs (s t : Service α) : Prop where
  fleet : t.watch.fleet = s.watch.fleet
  tasks : t.crew.tasks = s.crew.tasks
  index : t.watch.index = 0

/-- A failed poll is counted once and does no harm to the probes. What comes after it is the next
poll, or the end of a loop that was told to stop. -/
theorem step_flops {s : Service α} {l : Listing} {o : Outcome} (hl : s.loop = .asking l)
    (hfails : o.Fails) (hexpected : o.Expected) (now : α) :
    (s.step now (.answer o)).service.crew.metrics.discoveryFailures =
        s.crew.metrics.discoveryFailures + 1 ∧
      ∃ t, Shrugs s t ∧ ((s.step now (.answer o)).service = t ∨
        s.watch.stopping = true ∧
          (s.step now (.answer o)).service = (t.tearDown now .returned).service) := by
  obtain ⟨e, hread, hfailed⟩ := Query.read_fails s.source l.request hfails
  obtain ⟨f, rfl⟩ := hfailed hexpected
  have hservice : (s.hear now o).service =
      (s.take now (Watch.follow now (s.watch.receive (.error (.failed f))))).service := by
    rw [hear_eq now hl o, Listing.step_error hread]
  have hreceive := Watch.receive_failed s.watch f
  have honward := Watch.follow_onward now (s.watch.receive_current (.error (.failed f)))
  have hstand : (Watch.follow now (s.watch.receive (.error (.failed f)))).stand =
      (Watch.round { s.watch with index := 0 } now).stand := rfl
  generalize Watch.follow now (s.watch.receive (.error (.failed f))) = turn at *
  have hone : turn.failures = 1 := honward.failures
  have hnone : turn.orders = [] := honward.orders
  refine ⟨by rw [step, hservice, take_counts, hone], ?_⟩
  -- Without orders, the step of the loop is all that is taken over.
  have hshrugs : Shrugs s { s.countFailures turn.failures with watch := turn.watch } :=
    ⟨by rw [honward.fleet, hreceive], rfl, by rw [honward.index, hreceive]⟩
  rw [step, hservice]
  unfold take
  rw [hnone]
  cases hcase : turn.stand with
  | waiting wait =>
    cases wait with
    | tokens deadline =>
      refine ⟨_, ?_, .inl rfl⟩
      exact ⟨hshrugs.fleet, hshrugs.tasks, hshrugs.index⟩
    | catalog previous =>
      refine ⟨_, ?_, .inl rfl⟩
      exact ⟨hshrugs.fleet, hshrugs.tasks, hshrugs.index⟩
  | «over» result =>
    cases result with
    | ok found =>
      have hstopping := Watch.round_over (hstand.symm.trans hcase)
      exact ⟨_, hshrugs, .inr ⟨hstopping, rfl⟩⟩
    | error f =>
      refine ⟨_, ?_, .inl rfl⟩
      exact ⟨hshrugs.fleet, hshrugs.tasks, hshrugs.index⟩

/-- A service that was made and has done nothing yet. -/
structure Unbegun (s : Service α) : Prop where
  stage : s.stage = .idle
  loop : s.loop = .idle
  index : s.watch.index = 0

/-- **How the index goes on** in every run of a new service, whatever happens to it. No poll starts
below zero, the first starts at zero, and each next one where the poll before it leads. An answer
that fails the poll under way adds one to the failed polls, and leaves every probe and every task
as it was; no other event adds to them. -/
theorem polls_linked (s : Service α) (hs : s.Unbegun) (events : List (α × Event)) :
    (∀ p ∈ s.polls events, 0 ≤ p.sent) ∧
      (∀ p ∈ (s.polls events).getLast?, p.sent = 0) ∧
      (s.polls events).IsChain (fun next p => p.Leads next.sent) ∧
      ∀ (now : α) (e : Event),
        let t := s.run events
        let u := (t.step now e).service
        (∀ l o, t.loop = .asking l → e = .answer o → o.Fails → o.Expected →
          u.crew.metrics.discoveryFailures = t.crew.metrics.discoveryFailures + 1 ∧
            ∃ v, Shrugs t v ∧
              (u = v ∨ t.watch.stopping = true ∧ u = (v.tearDown now .returned).service)) ∧
          (¬ t.Flops e →
            u.crew.metrics.discoveryFailures = t.crew.metrics.discoveryFailures) := by
  have hlinked : Linked [] := ⟨nofun, nofun, .nil⟩
  have hstands : Stands s [] := .idle hs.loop (by simp [hs.stage]) rfl hs.index
  obtain ⟨hrun, hends⟩ := pollsAfter_stands hlinked hstands events
  refine ⟨hrun.nonneg, hrun.first, hrun.links, fun now e => ⟨?_, fun hflops => ?_⟩⟩
  · rintro l o hl rfl hfails hexpected
    exact step_flops hl hfails hexpected now
  · exact step_counts hends.upright now hflops

/-- The query that waits for its answer. -/
def asked? (s : Service α) : Option Listing :=
  match s.loop with
  | .asking l => some l
  | _ => none

omit [Quantity α] in
theorem asked?_eq_some {s : Service α} {l : Listing} :
    s.asked? = some l ↔ s.loop = .asking l := by
  unfold asked?
  split
  · next l' hl => simp [hl]
  · next hnone => simpa using hnone l

/-- An answer without services, at an index. -/
def emptyAt (index : String) : Outcome :=
  .ok ⟨200, [("X-Consul-Index", index)], .ok ("\x7b\x7d".toList.map fun c => c.toNat.toUInt8)⟩

def brokenOff : Outcome := .error ⟨.exchange, "ClientError", ""⟩

/-- The index goes forward, below zero and forward again, and then a poll fails. -/
def wavering : List (Rat × Event) :=
  [(0, .serve none), (0, .answer (emptyAt "7")), (1, .tick), (1, .answer (emptyAt "-3")), (2, .tick),
    (2, .answer (emptyAt "9")), (3, .tick), (3, .answer brokenOff), (4, .tick)]

theorem wavering_linked :
    (unhurried.polls wavering).map Poll.sent = [0, 9, 0, 7, 0] ∧
      (unhurried.polls wavering).IsChain (fun next p => p.Leads next.sent) ∧
      ((unhurried.run wavering).step 4
        (.answer brokenOff)).service.crew.metrics.discoveryFailures = 2 := by
  obtain ⟨-, -, hlinks, hevents⟩ := polls_linked unhurried ⟨rfl, rfl, rfl⟩ wavering
  obtain ⟨hflops, -⟩ := hevents 4 (.answer brokenOff)
  have hasked : (unhurried.run wavering).asked? = some (.services 0 "m") := by decide +kernel
  obtain ⟨hcounts, -⟩ := hflops _ brokenOff (asked?_eq_some.mp hasked) rfl trivial rfl
  exact ⟨by decide +kernel, hlinks, hcounts.trans (by decide +kernel)⟩

end Service

end FleetProbe
