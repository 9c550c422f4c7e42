import FleetProbe.Proofs.Catalog.Keeper
import FleetProbe.Rehearsal.Discovery
/-!
Whose HTTP sessions are, over any history of a client: one that queries, is closed, is left as a
context, and whose sessions others close. The running client looks at its newest session alone; that
this is all it takes is what its notes show, kept beside it.
-/

namespace FleetProbe

namespace Catalog.Sessions

/-- The sessions of a new client. -/
def start : Option Bool → Sessions
  | none => init
  | some isOpen => initGiven isOpen

end Catalog.Sessions

namespace Rehearsal.Discovery

open Catalog

/-- A client that is given a session, or none. -/
def equip (d : Discovery) (given : Option Bool) : Discovery :=
  { d with sessions := Sessions.start given }

/-- All sessions but the newest are closed already when somebody closes one. -/
def meet (d : Discovery) : Happening → Discovery
  | .query r => (d.query r).2
  | .close | .leave => { d with sessions := d.sessions.close }
  | .shut n => if n + 1 = d.sessions.length then { d with sessions := d.sessions.drop } else d

def run (d : Discovery) (history : List Happening) : Discovery := history.foldl meet d

/-- One client comes of another by queries, apart from what was noted. -/
def Queries (d t : Discovery) : Prop :=
  ∃ rs : List Request, { t with notices := d.notices } = d.run (rs.map .query)

theorem meet_sessions {d : Discovery} {k : Keeper} (h : k.Sound) (hd : d.sessions = k.sessions)
    (e : Happening) : (d.meet e).sessions = (k.step e).sessions := by
  cases e with
  | query r => exact (congrArg Sessions.acquire hd).trans h.sessions_acquire.symm
  | close => exact (congrArg Sessions.close hd).trans h.sessions_close.symm
  | leave => exact (congrArg Sessions.close hd).trans h.sessions_close.symm
  | shut n =>
    rw [Keeper.step, h.sessions_shut, meet, hd]
    split
    · rfl
    · exact hd

theorem run_sessions {d : Discovery} {k : Keeper} (h : k.Sound) (hd : d.sessions = k.sessions)
    (history : List Happening) : (d.run history).sessions = (k.run history).sessions := by
  induction history generalizing d k with
  | nil => exact hd
  | cons e history ih => exact ih (h.step e) (meet_sessions h hd e)

theorem equip_sessions (d : Discovery) (given : Option Bool) :
    (d.equip given).sessions = (Keeper.start given).sessions := by
  cases given with
  | none => rfl
  | some isOpen => rfl

theorem run_notices (d : Discovery) (notes : List Notice) (rs : List Request) :
    ({ d with notices := notes } : Discovery).run (rs.map .query) =
      { d.run (rs.map .query) with notices := notes } := by
  induction rs generalizing d with
  | nil => rfl
  | cons r rs ih => exact ih (d.query r).2

namespace Queries

variable {d t : Discovery}

theorem none (d : Discovery) : d.Queries d := ⟨[], rfl⟩

theorem first (r : Request) (notes : List Notice)
    (h : Queries { (d.query r).2 with notices := notes } t) : d.Queries t := by
  obtain ⟨rs, hrs⟩ := h
  refine ⟨r :: rs, ?_⟩
  calc { t with notices := d.notices }
      = { ({ t with notices := notes } : Discovery) with notices := d.notices } := rfl
    _ = { ({ (d.query r).2 with notices := notes } : Discovery).run (rs.map .query) with
          notices := d.notices } := by rw [← hrs]
    _ = { (d.query r).2.run (rs.map .query) with notices := d.notices } := by rw [run_notices]
    _ = ({ (d.query r).2 with notices := d.notices } : Discovery).run (rs.map .query) :=
        (run_notices _ _ _).symm
    _ = d.run ((r :: rs).map .query) := rfl

/-- A turn of a poll is a query, and the poll is over or goes on. -/
theorem turn {goOn : Discovery → Listing → Except QueryFault Snapshot × Discovery}
    (h : ∀ d l, Queries d (goOn d l).2) (d : Discovery) (l : Listing) :
    let asked := (d.query l.request).2
    let turn := l.step asked.source (d.query l.request).1
    d.Queries (match turn.1 with
      | .finish r => (r, { asked with notices := asked.notices ++ turn.2 })
      | .ask next => goOn { asked with notices := asked.notices ++ turn.2 } next).2 := by
  intro asked turn
  refine first l.request (asked.notices ++ turn.2) ?_
  split
  · exact .none _
  · exact h _ _

end Queries

theorem follow_queries (fuel : Nat) (d : Discovery) (l : Listing) :
    d.Queries (follow fuel d l).2 := by
  induction fuel generalizing d l with
  | zero => exact .none d
  | succ fuel ih => exact .turn ih d l

theorem list_queries (d : Discovery) (previous : Int) (tag : Text) :
    d.Queries (d.list previous tag).2 :=
  .turn (fun d l => follow_queries (queries l) d l) d (.services previous tag)

theorem nodes_queries (d : Discovery) (service : Text) : d.Queries (d.nodes service).2 := by
  unfold nodes
  split
  · exact .first (Listing.nodesRequest service) _ (.none _)
  · exact .none d

/-- **Sessions are used open and closed by their owners.** Let a client be given a session or none,
and let queries, closings, contexts left and sessions closed by others follow in whatever order. The
running client has the sessions that its notes say, and polls are sequences of queries. Every query
runs on an open session, the newest. The client never has more than one open session to close. A
session it was given is open until somebody else closes it. When the client has closed or its context
is left, and until it queries again, no session of its own is open. The next query runs on the session
that was given if that one is open, and on a fresh one otherwise, which is closed by the time the
client has closed once more. -/
theorem sessions_owned (d : Discovery) (given : Option Bool) (history : List Happening) :
    let client := (d.equip given).run history
    let k := (Keeper.start given).run history
    client.sessions = k.sessions ∧
    (∀ previous tag, client.Queries (client.list previous tag).2) ∧
    (∀ service, client.Queries (client.nodes service).2) ∧
    (∀ r, ∃ s, (k.step (.query r)).inUse? = some s ∧ s.isOpen = true ∧
      (client.query r).2.sessions.head? = some s) ∧
    k.pool.countP Session.isOwed ≤ 1 ∧
    (given.isSome = true → ∃ s, k.pool[0]? = some s ∧ s.given = true ∧
      (s.isOpen = true ↔ Lent given history)) ∧
    ∀ e idle, e.Closes → (∀ x ∈ idle, ¬ x.Asks) →
      let left := (k.step e).run idle
      left.Settled ∧
      ∀ r, (Lent given (history ++ e :: idle) → left.step (.query r) = left) ∧
        (¬ Lent given (history ++ e :: idle) → left.step (.query r) = left.renew ∧
          ∀ between e', e'.Closes →
            ((left.renew.run between).step e').pool[left.pool.length]? = some ⟨false, false⟩) := by
  intro client k
  have hsound : k.Sound := (Keeper.start_sound given).run history
  have hsame : client.sessions = k.sessions :=
    run_sessions (Keeper.start_sound given) (equip_sessions d given) history
  refine ⟨hsame, client.list_queries, client.nodes_queries, fun r => ?_, hsound.owed_le_one,
    fun hgiven => Keeper.start_run_lent hgiven history, fun e idle hcloses hquiet => ?_⟩
  · obtain ⟨s, hs, hopen⟩ := hsound.acquire_open
    have hquery : (client.query r).2.sessions = k.acquire.sessions :=
      meet_sessions hsound hsame (.query r)
    exact ⟨s, hs, hopen, by rw [hquery, ← hsound.acquire.inUse?_eq, hs]⟩
  · intro left
    have hclose {c : Keeper} {x : Happening} (h : x.Closes) : c.step x = c.close := by
      cases x with
      | close => rfl
      | leave => rfl
      | query r => cases h
      | shut n => cases h
    have hsettled : left.Settled := by
      refine (hsound.step e).run_settled ?_ hquiet
      rw [hclose hcloses]
      exact hsound.close_settled
    -- What is left is itself what a history leads to.
    have hleft : left = (Keeper.start given).run (history ++ e :: idle) :=
      (Keeper.run_append _ history (e :: idle)).symm
    have hnext := Keeper.acquire_settled (hleft ▸ hsettled)
    rw [← hleft] at hnext
    refine ⟨hsettled, fun r => ⟨hnext.1, fun hfree => ⟨hnext.2 hfree, fun between e' he' => ?_⟩⟩⟩
    have hrenewed : left.renew.Sound := by
      rw [← hnext.2 hfree]
      exact ((hsound.step e).run idle).acquire
    rw [hclose he']
    exact hrenewed.close_own between List.getElem?_concat_length rfl

def visitor : Discovery := { source := ⟨"http://c", "10m"⟩, web := [] }

def asking : Happening := .query (Listing.servicesRequest 0)

/-- The caller closes the session it gave, and the client goes on with one of its own. -/
def deserted : List Happening := [asking, .shut 0, asking]

/-- The deserted client closes its own session, which somebody closes once more, and opens another
that goes when the context is left. A client whose session was left alone goes on with that one. -/
theorem deserted_owned :
    let left := (((Keeper.start (some true)).run deserted).step .close).run [.shut 1]
    let lent := ((Keeper.start (some true)).run [asking]).step .close
    ((some true).isSome = true ∧ Happening.close.Closes ∧ Happening.leave.Closes ∧
      (∀ x ∈ [Happening.shut 1], ¬ x.Asks) ∧
      ¬ Lent (some true) (deserted ++ .close :: [.shut 1]) ∧
      Lent (some true) ([asking] ++ .close :: [])) ∧
    left.pool = [⟨true, false⟩, ⟨false, false⟩] ∧ left.Settled ∧
    ((left.renew.run [asking]).step .leave).pool[2]? = some ⟨false, false⟩ ∧
    (∃ s, ((Keeper.start (some true)).run deserted).pool[0]? = some s ∧ s.isOpen = false) ∧
    lent.step asking = lent := by
  have hquiet : ∀ x ∈ [Happening.shut 1], ¬ x.Asks := by
    intro x hx
    rw [List.mem_singleton.mp hx]
    exact id
  have hdeserted : ¬ Lent (some true) (deserted ++ .close :: [.shut 1]) :=
    fun h => h.2 (by simp [deserted])
  have hlent : Lent (some true) ([asking] ++ .close :: []) := ⟨rfl, by simp [asking]⟩
  obtain ⟨-, -, -, -, -, hgiven, hleft⟩ := sessions_owned visitor (some true) deserted
  obtain ⟨hsettled, hfresh⟩ := hleft .close [.shut 1] trivial hquiet
  obtain ⟨s, hs, -, hopen⟩ := hgiven rfl
  have hclosed : s.isOpen = false := by
    rw [Bool.eq_false_iff, ne_eq, hopen]
    exact fun h => h.2 (by simp [deserted])
  obtain ⟨-, -, -, -, -, -, hstays⟩ := sessions_owned visitor (some true) [asking]
  obtain ⟨-, hsame⟩ := hstays .close [] trivial (by simp)
  exact ⟨⟨rfl, trivial, trivial, hquiet, hdeserted, hlent⟩, rfl, hsettled,
    ((hfresh (Listing.servicesRequest 0)).2 hdeserted).2 [asking] .leave trivial,
    ⟨s, hs, hclosed⟩, (hsame (Listing.servicesRequest 0)).1 hlent⟩

end Rehearsal.Discovery

end FleetProbe
