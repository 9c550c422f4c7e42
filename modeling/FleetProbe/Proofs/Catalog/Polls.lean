import FleetProbe.Catalog.Listing
import FleetProbe.Proofs.Catalog.Snapshot
/-!
How polls of the catalog end. Whatever the catalog answers, a poll is over after some answers; it
comes to a snapshot or to a failed query, unless an answer is fatal: nested too deeply to be read,
or naming a service next that no address can be written for.
-/

namespace FleetProbe.Catalog

/-- What a catalog, or the way to it, can be expected to do: answer with anything, or fail as an
exchange does. -/
def Outcome.Expected : Outcome → Prop
  | .error f => f.isQuery = true
  | .ok a => ∀ f, a.body = .error f → f.isQuery = true

/-- An answer whose body is looked at: its status is a good one, and it has a good index or
none. -/
def Outcome.Accepted (o : Outcome) (body : Bytes) : Prop :=
  ∃ a, o = .ok a ∧ (200 ≤ a.status ∧ a.status < 300) ∧ a.body = .ok body ∧
    ∀ raw, Query.header? a.headers Query.indexHeader = some raw →
      ∃ index, Text.integer? raw = .ok index

/-- The index that came with an answer, if one did and it is an integer. -/
def Outcome.index? : Outcome → Option Int
  | .ok a => (Query.header? a.headers Query.indexHeader).bind fun raw => (Text.integer? raw).toOption
  | .error _ => none

/-- The index to go on with after an answer to a query that was sent with another. -/
def Outcome.indexAfter (o : Outcome) (sent : Int) : Int :=
  match o.index? with
  | some index => if sent ≤ index ∧ 0 ≤ index then index else 0
  | none => 0

/-- A poll that ends in one of the two ways it should: with a snapshot, or with a failed query. -/
def Foreseen (r : Except QueryFault Snapshot) : Prop :=
  (∃ s, r = .ok s) ∨ ∃ f, r = .error (.failed f)

namespace Query

theorem faultOf_expected (url : Text) {f : Fault} (h : f.isQuery = true) :
    faultOf url f = .failed (.query url none (some f.text)) := if_pos h

theorem readBody_error {body : Bytes} {e : QueryFault} (h : readBody body = .error e) :
    e = .tooDeep ∧ ∃ t, Text.decode? body = some t ∧ Json.read t = .error .tooDeep := by
  unfold readBody at h
  split at h
  · cases h
  · next t ht =>
    split at h
    · cases h
    · next hdeep =>
      cases h
      exact ⟨rfl, t, ht, hdeep⟩
    · cases h

theorem readBody_tooDeep {body : Bytes} {t : Text} (ht : Text.decode? body = some t)
    (hdeep : Json.read t = .error .tooDeep) : readBody body = .error .tooDeep := by
  unfold readBody
  simp only [ht, hdeep]

theorem check_fst (sent index : Int) :
    (Cursor.check sent index).1 = if sent ≤ index ∧ 0 ≤ index then index else 0 := by
  unfold Cursor.check
  split
  · rw [if_neg (by omega)]
  · split
    · rw [if_neg (by omega)]
    · rw [if_pos (by omega)]

/-- An accepted answer comes to what its body says, with the index to go on with. -/
theorem read_accepted (s : Source) (r : Request) {o : Outcome} {body : Bytes}
    (h : o.Accepted body) :
    (read s r o).1 = (readBody body).map fun v => (o.indexAfter r.index, v.1) := by
  obtain ⟨a, rfl, hstatus, hbody, hindex⟩ := h
  have hgood : ¬ (a.status < 200 ∨ 300 ≤ a.status) := by omega
  obtain ⟨notes, hread⟩ : ∃ notes, readIndex (r.url s) r.index a.headers =
      .ok (Outcome.indexAfter (.ok a) r.index, notes) := by
    unfold readIndex Outcome.indexAfter
    cases hheader : header? a.headers indexHeader with
    | none => simp [Outcome.index?, hheader]
    | some raw =>
      obtain ⟨index, hinteger⟩ := hindex raw hheader
      simp only [Outcome.index?, hheader, hinteger, Option.bind_some, Except.toOption]
      exact ⟨_, by rw [← check_fst]⟩
  simp only [read, if_neg hgood, hbody, hread]
  cases readBody body with
  | error e => rfl
  | ok v => rfl

/-- Any other answer is an error, and one that a query can be expected to end with if the answer
can be expected. -/
theorem read_refused (s : Source) (r : Request) {o : Outcome} (h : ∀ body, ¬ o.Accepted body) :
    ∃ e, (read s r o).1 = .error e ∧ (o.Expected → ∃ f, e = .failed f) := by
  cases o with
  | error f => exact ⟨_, rfl, fun hexpected => ⟨_, faultOf_expected _ hexpected⟩⟩
  | ok a =>
    unfold read
    by_cases hstatus : a.status < 200 ∨ 300 ≤ a.status
    · simp only [if_pos hstatus]
      exact ⟨_, rfl, fun _ => ⟨_, rfl⟩⟩
    simp only [if_neg hstatus]
    cases hbody : a.body with
    | error f => exact ⟨_, rfl, fun hexpected => ⟨_, faultOf_expected _ (hexpected f hbody)⟩⟩
    | ok body =>
      -- Only the index is left to be wrong.
      have hindex : ¬ ∀ raw, header? a.headers indexHeader = some raw →
          ∃ index, Text.integer? raw = .ok index :=
        fun hindex => h body ⟨a, rfl, by omega, hbody, hindex⟩
      obtain ⟨raw, hraw⟩ := Classical.not_forall.mp hindex
      obtain ⟨hheader, hnone⟩ := Classical.not_imp.mp hraw
      have hread : ∃ f, readIndex (r.url s) r.index a.headers = .error (.failed f) := by
        unfold readIndex
        cases hinteger : Text.integer? raw with
        | ok index => exact absurd ⟨index, hinteger⟩ hnone
        | error e =>
          simp only [hheader, hinteger]
          exact ⟨_, rfl⟩
      obtain ⟨f, hf⟩ := hread
      simp only [hf]
      exact ⟨_, rfl, fun _ => ⟨f, rfl⟩⟩

end Query

namespace Listing

/-- The services left to ask for, once a document was read. -/
def left (l : Listing) (v : Value) : List Text :=
  match l with
  | services _ tag => (Services.matching tag v).1
  | nodes _ _ remaining => remaining

/-- Answers that no poll survives. -/
inductive Fatal (l : Listing) (o : Outcome) : Prop where
  /-- The document is nested too deeply. -/
  | tooDeep {body : Bytes} {t : Text} : o.Accepted body → Text.decode? body = some t →
      Json.read t = .error .tooDeep → Fatal l o
  /-- A surrogate stands in the name of the service to ask for next. -/
  | surrogate {body : Bytes} {v : Value} {notes : List Notice} {name : Text} {rest : List Text} :
      o.Accepted body → Query.readBody body = .ok (v, notes) → l.left v = name :: rest →
      name.points.any Text.isSurrogate = true → Fatal l o

theorem encode?_none {t : Text} (h : t.points.any Text.isSurrogate = true) :
    Text.encode? t = none := if_pos h

theorem encode?_some {t : Text} (h : ¬ t.points.any Text.isSurrogate = true) :
    (Text.encode? t).isSome = true := by
  rw [Text.encode?, if_neg h]
  rfl

/-- Where no name with a surrogate is next, the next service is asked for, or the poll is over with
what was found. -/
theorem askNext_cases (found : Snapshot) (names : List Text) :
    (∃ name rest, names = name :: rest ∧ name.points.any Text.isSurrogate = true ∧
      askNext found names = .finish (.error .unencodable)) ∨
    (∃ name rest, names = name :: rest ∧ ¬ name.points.any Text.isSurrogate = true ∧
      askNext found names = .ask (.nodes found name rest)) ∨
    (names = [] ∧ askNext found names = .finish (.ok found)) := by
  cases names with
  | nil => exact .inr (.inr ⟨rfl, rfl⟩)
  | cons name rest =>
    by_cases h : name.points.any Text.isSurrogate = true
    · refine .inl ⟨name, rest, rfl, h, ?_⟩
      rw [askNext, encode?_none h]
      rfl
    · exact .inr (.inl ⟨name, rest, rfl, h, if_pos (encode?_some h)⟩)

/-- The index that a poll goes on with after an answer that came with one. -/
def carried (l : Listing) (index : Int) : Int :=
  match l with
  | services _ _ => index
  | nodes found _ _ => found.index

theorem step_ok {s : Source} {l : Listing} {o : Outcome} {index : Int} {v : Value}
    (h : (Query.read s l.request o).1 = .ok (index, v)) :
    ∃ found, (l.step s o).1 = askNext found (l.left v) ∧ found.index = l.carried index := by
  unfold step
  cases hread : Query.read s l.request o with
  | mk answer notes =>
    rw [hread] at h
    cases h
    cases l with
    | services previous tag => exact ⟨_, rfl, rfl⟩
    | nodes found service remaining => exact ⟨_, rfl, Snapshot.foldl_add_index _ _⟩

theorem step_error {s : Source} {l : Listing} {o : Outcome} {e : QueryFault}
    (h : (Query.read s l.request o).1 = .error e) : (l.step s o).1 = .finish (.error e) := by
  unfold step
  cases hread : Query.read s l.request o with
  | mk answer notes =>
    rw [hread] at h
    cases h
    cases l with
    | services previous tag => rfl
    | nodes found service remaining => rfl

/-- A fatal answer ends the poll in a way nobody foresees. -/
theorem step_fatal (s : Source) {l : Listing} {o : Outcome} (h : l.Fatal o) :
    ∃ e, (l.step s o).1 = .finish (.error e) ∧ ∀ f, e ≠ .failed f := by
  cases h with
  | tooDeep hbody ht hdeep =>
    have hread := Query.read_accepted s l.request hbody
    rw [Query.readBody_tooDeep ht hdeep] at hread
    exact ⟨.tooDeep, step_error hread, by simp⟩
  | surrogate hbody hv hleft hsurrogate =>
    have hread := Query.read_accepted s l.request hbody
    rw [hv] at hread
    obtain ⟨found, hstep, -⟩ := step_ok hread
    refine ⟨.unencodable, ?_, by simp⟩
    rw [hstep, hleft, askNext, encode?_none hsurrogate]
    rfl

/-- Every other answer leads to the next query, or ends the poll as it should. -/
theorem step_foreseen (s : Source) {l : Listing} {o : Outcome} (hexpected : o.Expected)
    (h : ¬ l.Fatal o) :
    (∃ v name rest found, l.left v = name :: rest ∧
      (l.step s o).1 = .ask (.nodes found name rest)) ∨
    ∃ r, (l.step s o).1 = .finish r ∧ Foreseen r := by
  by_cases hbody : ∃ body, o.Accepted body
  · obtain ⟨body, hbody⟩ := hbody
    have hread := Query.read_accepted s l.request hbody
    cases hv : Query.readBody body with
    | error e =>
      obtain ⟨-, t, ht, hdeep⟩ := Query.readBody_error hv
      exact absurd (.tooDeep hbody ht hdeep) h
    | ok read =>
      obtain ⟨v, notes⟩ := read
      rw [hv] at hread
      obtain ⟨found, hstep, -⟩ := step_ok hread
      obtain ⟨name, rest, hleft, hsurrogate, -⟩ | ⟨name, rest, hleft, -, hask⟩ | ⟨-, hdone⟩ :=
        askNext_cases found (l.left v)
      · exact absurd (.surrogate hbody hv hleft hsurrogate) h
      · exact .inl ⟨v, name, rest, found, hleft, hstep.trans hask⟩
      · exact .inr ⟨.ok found, hstep.trans hdone, .inl ⟨found, rfl⟩⟩
  · obtain ⟨e, hread, hfailed⟩ := Query.read_refused s l.request fun body hb => hbody ⟨body, hb⟩
    obtain ⟨f, rfl⟩ := hfailed hexpected
    exact .inr ⟨_, step_error hread, .inr ⟨f, rfl⟩⟩

/-- Every answer ends the poll, or takes it to the next of the services that are left. -/
theorem step_cases (s : Source) (l : Listing) (o : Outcome) :
    (∃ r, (l.step s o).1 = .finish r) ∨
    ∃ v name rest found, l.left v = name :: rest ∧
      (l.step s o).1 = .ask (.nodes found name rest) := by
  cases hread : (Query.read s l.request o).1 with
  | error e => exact .inl ⟨_, step_error hread⟩
  | ok read =>
    obtain ⟨index, v⟩ := read
    obtain ⟨found, hstep, -⟩ := step_ok hread
    obtain ⟨name, rest, -, -, hend⟩ | ⟨name, rest, hleft, -, hask⟩ | ⟨-, hend⟩ :=
      askNext_cases found (l.left v)
    · exact .inl ⟨_, hstep.trans hend⟩
    · exact .inr ⟨v, name, rest, found, hleft, hstep.trans hask⟩
    · exact .inl ⟨_, hstep.trans hend⟩

/-- The snapshot under way holds every key once, and under it a node of that key. -/
def WellKeyed : Listing → Prop
  | services _ _ => True
  | nodes found _ _ => found.WellKeyed

def Turn.WellKeyed : Turn → Prop
  | .ask l => l.WellKeyed
  | .finish r => ∀ found, r = .ok found → found.WellKeyed

theorem askNext_wellKeyed {found : Snapshot} (h : found.WellKeyed) (names : List Text) :
    (askNext found names).WellKeyed := by
  obtain ⟨name, rest, -, -, hask⟩ | ⟨name, rest, -, -, hask⟩ | ⟨-, hask⟩ :=
    askNext_cases found names
  · rw [hask]
    exact fun _ hfound => by cases hfound
  · rw [hask]
    exact h
  · rw [hask]
    intro _ hfound
    cases hfound
    exact h

theorem step_wellKeyed {l : Listing} (h : l.WellKeyed) (s : Source) (o : Outcome) :
    (l.step s o).1.WellKeyed := by
  cases hread : Query.read s l.request o with
  | mk answer notes =>
    cases answer with
    | error e =>
      rw [step_error (by rw [hread])]
      exact fun _ hfound => by cases hfound
    | ok read =>
      unfold step
      rw [hread]
      cases l with
      | services previous tag =>
        exact askNext_wellKeyed (Snapshot.empty_wellKeyed _) _
      | nodes found service remaining =>
        exact askNext_wellKeyed (Snapshot.foldl_add_wellKeyed _ h) _

/-- Where a poll stands after some answers; those that come after its end are not for it. -/
def after (s : Source) (l : Listing) : List Outcome → Turn
  | [] => .ask l
  | o :: os =>
    match (l.step s o).1 with
    | .ask next => next.after s os
    | .finish r => .finish r

theorem nodes_over (s : Source) (found : Snapshot) (service : Text) (remaining : List Text)
    (answers : List Outcome) (h : remaining.length < answers.length) :
    ∃ r, (nodes found service remaining).after s answers = .finish r := by
  induction answers generalizing found service remaining with
  | nil => exact absurd h (Nat.not_lt_zero _)
  | cons o os ih =>
    rw [after]
    obtain ⟨r, hstep⟩ | ⟨v, name, rest, next, hleft, hstep⟩ :=
      step_cases s (nodes found service remaining) o
    · rw [hstep]
      exact ⟨r, rfl⟩
    · rw [hstep]
      have hremaining : remaining = name :: rest := hleft
      rw [hremaining, List.length_cons, List.length_cons] at h
      exact ih next name rest (Nat.lt_of_succ_lt_succ h)

theorem finishes (s : Source) (l : Listing) (answers : Nat → Outcome) :
    ∃ n r, l.after s ((List.range n).map answers) = .finish r := by
  obtain ⟨r, hstep⟩ | ⟨v, name, rest, found, -, hstep⟩ := step_cases s l (answers 0)
  · refine ⟨1, r, ?_⟩
    simp [after, hstep]
  · obtain ⟨r, hr⟩ := nodes_over s found name rest
      ((List.range (rest.length + 1)).map fun i => answers (i + 1)) (by simp)
    refine ⟨rest.length + 2, r, ?_⟩
    rw [List.range_succ_eq_map, List.map_cons, List.map_map, after, hstep]
    exact hr

/-- One of the answers that a poll gets is fatal. -/
def Meets (s : Source) (l : Listing) : List Outcome → Prop
  | [] => False
  | o :: os => l.Fatal o ∨ ∃ next, (l.step s o).1 = .ask next ∧ next.Meets s os

/-- A poll ends as it should exactly when none of its answers is fatal. -/
theorem after_foreseen (s : Source) (l : Listing) (answers : List Outcome)
    (hexpected : ∀ o ∈ answers, o.Expected) {r : Except QueryFault Snapshot}
    (h : l.after s answers = .finish r) : Foreseen r ↔ ¬ l.Meets s answers := by
  induction answers generalizing l with
  | nil => cases h
  | cons o os ih =>
    have ho : o.Expected := hexpected o List.mem_cons_self
    have hos : ∀ p ∈ os, p.Expected := fun p hp => hexpected p (List.mem_cons_of_mem _ hp)
    by_cases hfatal : l.Fatal o
    · obtain ⟨e, hstep, he⟩ := step_fatal s hfatal
      simp only [after, hstep] at h
      cases h
      have hunforeseen : ¬ Foreseen (.error e) := by
        rintro (⟨found, hf⟩ | ⟨f, hf⟩)
        · cases hf
        · exact he f (Except.error.inj hf)
      exact ⟨fun hf => absurd hf hunforeseen, fun hmeets => absurd (.inl hfatal) hmeets⟩
    · obtain ⟨v, name, rest, found, -, hstep⟩ | ⟨r', hstep, hforeseen⟩ :=
        step_foreseen s ho hfatal
      · simp only [after, hstep] at h
        rw [ih _ hos h, Meets]
        constructor
        · rintro hlater (hf | ⟨next, hnext, hmeets⟩)
          · exact hfatal hf
          · rw [hstep] at hnext
            cases hnext
            exact hlater hmeets
        · exact fun hmeets hlater => hmeets (.inr ⟨_, hstep, hlater⟩)
      · simp only [after, hstep] at h
        cases h
        refine ⟨fun _ => ?_, fun _ => hforeseen⟩
        rintro (hf | ⟨next, hnext, -⟩)
        · exact hfatal hf
        · rw [hstep] at hnext
          cases hnext

end Listing

end FleetProbe.Catalog
