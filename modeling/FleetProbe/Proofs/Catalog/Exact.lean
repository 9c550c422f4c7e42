import FleetProbe.Proofs.Catalog.Polls
import FleetProbe.Proofs.Catalog.Snapshot
/-!
What polls of the catalog ask, and what they bring. A poll asks for the services and then for the
nodes of each service with the tag, up to the first query that fails; it brings all the nodes, or
no snapshot. A body that is no document says nothing and does no harm, unless it is nested too
deeply.
-/

namespace FleetProbe

namespace Json

/-- Lists opened one in the other, deeper than a reader may go. -/
theorem readValue_tooDeep (depth fuel k : Nat) (hfuel : 2 * depth + 1 ≤ fuel) (hk : depth < k) :
    readValue fuel depth (List.replicate k 0x5b) = .error .tooDeep := by
  induction depth generalizing fuel k with
  | zero =>
    obtain ⟨fuel, rfl⟩ := Nat.exists_eq_add_of_le' (show 1 ≤ fuel by omega)
    obtain ⟨k, rfl⟩ := Nat.exists_eq_add_of_le' (show 1 ≤ k by omega)
    simp [List.replicate_succ, readValue]
  | succ depth ih =>
    obtain ⟨fuel, rfl⟩ := Nat.exists_eq_add_of_le' (show 2 ≤ fuel by omega)
    obtain ⟨k, rfl⟩ := Nat.exists_eq_add_of_le' (show 2 ≤ k by omega)
    have hinner := ih fuel (k + 1) (by omega) (by omega)
    simp only [List.replicate_succ] at hinner ⊢
    simp [readValue, skipSpaces, isSpace, readItems, hinner]

/-- A document that opens more lists than a reader may is nested too deeply. -/
theorem read_opened {k : Nat} (hk : maxDepth < k) :
    read ⟨List.replicate k 0x5b⟩ = .error .tooDeep := by
  have hspaces : skipSpaces (List.replicate k 0x5b) = List.replicate k 0x5b := by
    obtain ⟨k, rfl⟩ := Nat.exists_eq_add_of_le' (show 1 ≤ k by omega)
    simp [List.replicate_succ, skipSpaces, isSpace]
  have hvalue := readValue_tooDeep maxDepth (2 * k + 2) k (by omega) hk
  simp only [read, Text.length, List.length_replicate, hspaces, hvalue]

end Json

namespace Text

/-- A byte below `0x80` is a character. -/
theorem decodePoints?_cons {a : UInt8} (ha : a < 0x80) (rest : List UInt8) :
    decodePoints? (a :: rest) = (decodePoints? rest).map (a.toNat :: ·) := by
  rw [decodePoints?.eq_def]
  exact if_pos ha

theorem decode?_opened (k : Nat) :
    decode? (List.replicate k 0x5b) = some ⟨List.replicate k 0x5b⟩ := by
  have hpoints : decodePoints? (List.replicate k 0x5b) = some (List.replicate k 0x5b) := by
    induction k with
    | zero => rfl
    | succ k ih =>
      rw [List.replicate_succ, decodePoints?_cons (by decide), ih]
      rfl
  rw [decode?, hpoints]
  rfl

end Text

namespace Catalog

namespace Outcome

/-- A query fails that is not answered, whose status is none of success, whose body breaks off, or
whose index is no integer. -/
def Fails : Outcome → Prop
  | .error _ => True
  | .ok a => ¬ (200 ≤ a.status ∧ a.status < 300) ∨ (∃ f, a.body = .error f) ∨
      ∃ raw, Query.header? a.headers Query.indexHeader = some raw ∧
        ∀ index, Text.integer? raw ≠ .ok index

/-- What an answer says; a body that is no document says nothing. -/
def document : Outcome → Value
  | .ok ⟨_, _, .ok body⟩ =>
    match (Text.decode? body).map Json.read with
    | some (.ok v) => v
    | _ => .null
  | _ => .null

/-- An answer that is taken, with a document that is nested too deeply to be read. -/
def TooDeep (o : Outcome) : Prop :=
  ∃ body t, o.Accepted body ∧ Text.decode? body = some t ∧ Json.read t = .error .tooDeep

theorem not_fails_iff (o : Outcome) : ¬ o.Fails ↔ ∃ body, o.Accepted body := by
  constructor
  · intro h
    cases o with
    | error f => exact absurd trivial h
    | ok a =>
      simp only [Fails, not_or, not_not] at h
      obtain ⟨hstatus, hbody, hindex⟩ := h
      cases hb : a.body with
      | error f => exact absurd ⟨f, hb⟩ hbody
      | ok body =>
        refine ⟨body, a, rfl, hstatus, hb, fun raw hraw => ?_⟩
        by_contra hnone
        exact hindex ⟨raw, hraw, fun index hi => hnone ⟨index, hi⟩⟩
  · rintro ⟨body, a, rfl, hstatus, hbody, hindex⟩ (hbad | ⟨f, hf⟩ | ⟨raw, hraw, hnone⟩)
    · exact hbad hstatus
    · rw [hbody] at hf
      cases hf
    · obtain ⟨index, hi⟩ := hindex raw hraw
      exact hnone index hi

theorem TooDeep.not_fails {o : Outcome} (h : o.TooDeep) : ¬ o.Fails := by
  obtain ⟨body, -, hbody, -⟩ := h
  exact (not_fails_iff o).mpr ⟨body, hbody⟩

theorem TooDeep.document {o : Outcome} (h : o.TooDeep) : o.document = .null := by
  obtain ⟨body, t, ⟨⟨status, headers, read⟩, rfl, -, rfl, -⟩, ht, hdeep⟩ := h
  simp [Outcome.document, ht, hdeep]

end Outcome

namespace Query

/-- A query that does not fail brings what its answer says. -/
theorem read_plain (s : Source) (r : Request) {o : Outcome} (hfails : ¬ o.Fails)
    (hdeep : ¬ o.TooDeep) : (read s r o).1 = .ok (o.indexAfter r.index, o.document) := by
  obtain ⟨body, hbody⟩ := (o.not_fails_iff).mp hfails
  rw [read_accepted s r hbody]
  obtain ⟨v, hv, hdocument⟩ : ∃ v, readBody body = .ok v ∧ v.1 = o.document := by
    obtain ⟨⟨status, headers, read⟩, rfl, -, rfl, -⟩ := id hbody
    unfold readBody Outcome.document
    cases ht : Text.decode? body with
    | none => exact ⟨_, rfl, by simp [ht]⟩
    | some t =>
      cases hr : Json.read t with
      | ok v => simp [ht, hr]
      | error e =>
        cases e with
        | tooDeep => exact absurd ⟨body, t, hbody, ht, hr⟩ hdeep
        | malformed => simp [ht, hr]
        | hugeInteger => simp [ht, hr]
  rw [hv, ← hdocument]
  rfl

theorem read_tooDeep (s : Source) (r : Request) {o : Outcome} (h : o.TooDeep) :
    (read s r o).1 = .error .tooDeep := by
  obtain ⟨body, t, hbody, ht, hdeep⟩ := h
  rw [read_accepted s r hbody, readBody_tooDeep ht hdeep]
  rfl

theorem read_fails (s : Source) (r : Request) {o : Outcome} (h : o.Fails) :
    ∃ e, (read s r o).1 = .error e ∧ (o.Expected → ∃ f, e = .failed f) :=
  read_refused s r fun body hb => (o.not_fails_iff).mpr ⟨body, hb⟩ h

/-- Only a query that does not fail brings something. -/
theorem read_ok {s : Source} {r : Request} {o : Outcome} {index : Int} {v : Value}
    (h : (read s r o).1 = .ok (index, v)) : ¬ o.Fails ∧ index = o.indexAfter r.index := by
  have hfails : ¬ o.Fails := by
    intro hfails
    obtain ⟨e, he, -⟩ := read_fails s r hfails
    rw [he] at h
    cases h
  obtain ⟨body, hbody⟩ := (o.not_fails_iff).mp hfails
  rw [read_accepted s r hbody] at h
  cases hread : readBody body with
  | error e =>
    rw [hread] at h
    cases h
  | ok read =>
    rw [hread] at h
    cases h
    exact ⟨hfails, rfl⟩

end Query

/-- A list of tags holds a tag. -/
def Carries (tag : Text) (v : Value) : Prop := ∃ tags, v = .list tags ∧ .text tag ∈ tags

theorem hasTag_iff (tag : Text) (v : Value) : hasTag tag v = true ↔ Carries tag v := by
  have htext (u : Value) : u.isText tag = true ↔ u = .text tag := by
    cases u <;> simp [Value.isText]
  cases v with
  | list tags => simp [hasTag, Carries, htext]
  | null | bool | int | real | text | bytes | date | map | again => simp [hasTag, Carries]

instance (tag : Text) (v : Value) : Decidable (Carries tag v) :=
  decidable_of_iff _ (hasTag_iff tag v)

/-- The keys of an object whose values carry a tag, in order; anything else has none. -/
def tagged (tag : Text) : Value → List Text
  | .map entries => (entries.filter fun e => Carries tag e.2).filterMap fun e =>
      match e.1 with
      | .text name => some name
      | _ => none
  | _ => []

theorem matching_eq (tag : Text) (v : Value) : (Services.matching tag v).1 = tagged tag v := by
  cases v with
  | map entries =>
    simp only [Services.matching, tagged, List.filterMap_filter]
    congr 1
    funext e
    obtain ⟨key, value⟩ := e
    cases key with
    | text name => simp [← hasTag_iff]
    | null | bool | int | real | bytes | date | list | map | again => simp
  | null | bool | int | real | text | bytes | date | list | again => rfl

/-- The nodes that the answers for some services name, the first answer for the first service. -/
def gathered : List Text → (Nat → Outcome) → List Node
  | [], _ => []
  | name :: names, answers =>
    (Nodes.extract name (answers 0).document).1 ++ gathered names fun i => answers (i + 1)

namespace Listing

/-- The queries that a poll sends while answers come in. -/
def sent (s : Source) (l : Listing) : List Outcome → List Request
  | [] => [l.request]
  | o :: os =>
    l.request :: match (l.step s o).1 with
      | .ask next => next.sent s os
      | .finish _ => []

/-- All the queries that a poll has to send, after what the first of them was answered. -/
def asked (previous : Int) (tag : Text) (first : Outcome) : List Request :=
  servicesRequest previous :: (tagged tag first.document).map nodesRequest

/-- What a poll should come to. Every query is answered, and the snapshot holds what the answers
name; or one query fails, and it was the last that was sent. -/
inductive Exact (previous : Int) (tag : Text) (answers : Nat → Outcome) :
    List Request → Except QueryFault Snapshot → Prop where
  | found {found : Snapshot} :
    (∀ i < (asked previous tag (answers 0)).length, ¬ (answers i).Fails) →
    found.index = (answers 0).indexAfter previous →
    found.Holds (gathered (tagged tag (answers 0).document) fun i => answers (i + 1)) →
    Exact previous tag answers (asked previous tag (answers 0)) (.ok found)
  | failed {i : Nat} {f : Failure} :
    i < (asked previous tag (answers 0)).length → (∀ j < i, ¬ (answers j).Fails) →
    (answers i).Fails →
    Exact previous tag answers ((asked previous tag (answers 0)).take (i + 1)) (.error (.failed f))

theorem not_exact_tooDeep {previous : Int} {tag : Text} {answers : Nat → Outcome}
    {requests : List Request} : ¬ Exact previous tag answers requests (.error .tooDeep) := by
  intro h
  cases h

/-- How a poll with some queries to send ends after some answers, of which all but the last are
taken. -/
inductive Course (queries : List Request) (answers : Nat → Outcome) (whole : Snapshot) :
    Nat → Except QueryFault Snapshot → Prop where
  | whole : (∀ i < queries.length, ¬ (answers i).Fails ∧ ¬ (answers i).TooDeep) →
    Course queries answers whole queries.length (.ok whole)
  | failed {i : Nat} {f : Failure} : i < queries.length →
    (∀ j < i, ¬ (answers j).Fails ∧ ¬ (answers j).TooDeep) → (answers i).Fails →
    Course queries answers whole (i + 1) (.error (.failed f))
  | tooDeep {i : Nat} : i < queries.length →
    (∀ j < i, ¬ (answers j).Fails ∧ ¬ (answers j).TooDeep) → (answers i).TooDeep →
    Course queries answers whole (i + 1) (.error .tooDeep)

theorem Course.cons {queries : List Request} {answers : Nat → Outcome} {whole : Snapshot} {n : Nat}
    {r : Except QueryFault Snapshot} (q : Request) (hfails : ¬ (answers 0).Fails)
    (hdeep : ¬ (answers 0).TooDeep) (h : Course queries (fun i => answers (i + 1)) whole n r) :
    Course (q :: queries) answers whole (n + 1) r := by
  have hall (k : Nat)
      (hk : ∀ j < k, ¬ (answers (j + 1)).Fails ∧ ¬ (answers (j + 1)).TooDeep) :
      ∀ j < k + 1, ¬ (answers j).Fails ∧ ¬ (answers j).TooDeep := by
    intro j hj
    cases j with
    | zero => exact ⟨hfails, hdeep⟩
    | succ j => exact hk j (Nat.lt_of_succ_lt_succ hj)
  cases h with
  | whole h => exact .whole (hall _ h)
  | failed hi h hbad => exact .failed (Nat.succ_lt_succ hi) (hall _ h) hbad
  | tooDeep hi h hbad => exact .tooDeep (Nat.succ_lt_succ hi) (hall _ h) hbad

def opening (answers : Nat → Outcome) (n : Nat) : List Outcome := (List.range n).map answers

theorem opening_succ (answers : Nat → Outcome) (n : Nat) :
    opening answers (n + 1) = answers 0 :: opening (fun i => answers (i + 1)) n := by
  rw [opening, List.range_succ_eq_map, List.map_cons, List.map_map]
  rfl

/-- A poll takes the course of some queries. -/
def Takes (s : Source) (l : Listing) (queries : List Request) (answers : Nat → Outcome)
    (whole : Snapshot) : Prop :=
  ∃ n r, Course queries answers whole n r ∧ l.after s (opening answers n) = .finish r ∧
    l.sent s (opening answers n) = queries.take n

section Takes

variable {s : Source} {l : Listing} {queries : List Request} {answers : Nat → Outcome}
  {whole : Snapshot}

theorem takes_of_finish {r : Except QueryFault Snapshot}
    (hstep : (l.step s (answers 0)).1 = .finish r)
    (hcourse : Course (l.request :: queries) answers whole 1 r) :
    l.Takes s (l.request :: queries) answers whole := by
  refine ⟨1, r, hcourse, ?_, ?_⟩
  · simp [opening, after, hstep]
  · simp [opening, sent, hstep]

theorem takes_of_ask {next : Listing} (hstep : (l.step s (answers 0)).1 = .ask next)
    (hfails : ¬ (answers 0).Fails) (hdeep : ¬ (answers 0).TooDeep)
    (h : next.Takes s queries (fun i => answers (i + 1)) whole) :
    l.Takes s (l.request :: queries) answers whole := by
  obtain ⟨n, r, hcourse, hafter, hsent⟩ := h
  refine ⟨n + 1, r, hcourse.cons l.request hfails hdeep, ?_, ?_⟩
  · rw [opening_succ, after, hstep]
    exact hafter
  · rw [opening_succ, sent, hstep, List.take_succ_cons]
    exact congrArg _ hsent

theorem takes_of_plain (hexpected : (answers 0).Expected)
    (h : ¬ (answers 0).Fails → ¬ (answers 0).TooDeep →
      l.Takes s (l.request :: queries) answers whole) :
    l.Takes s (l.request :: queries) answers whole := by
  by_cases hfails : (answers 0).Fails
  · obtain ⟨e, hread, hfailed⟩ := Query.read_fails s l.request hfails
    obtain ⟨f, rfl⟩ := hfailed hexpected
    exact takes_of_finish (step_error hread) (.failed (Nat.zero_lt_succ _) (by simp) hfails)
  by_cases hdeep : (answers 0).TooDeep
  · have hread := Query.read_tooDeep s l.request hdeep
    exact takes_of_finish (step_error hread) (.tooDeep (Nat.zero_lt_succ _) (by simp) hdeep)
  exact h hfails hdeep

end Takes

theorem nodes_step (s : Source) (found : Snapshot) (service : Text) (remaining : List Text)
    {o : Outcome} (hfails : ¬ o.Fails) (hdeep : ¬ o.TooDeep) :
    ((nodes found service remaining).step s o).1 =
      askNext ((Nodes.extract service o.document).1.foldl Snapshot.add found) remaining := by
  have hread := Query.read_plain s (nodes found service remaining).request hfails hdeep
  unfold step
  split
  next answer notes heq =>
    rw [heq] at hread
    cases hread
    rfl

theorem services_step (s : Source) (previous : Int) (tag : Text) {o : Outcome}
    (hfails : ¬ o.Fails) (hdeep : ¬ o.TooDeep) :
    ((services previous tag).step s o).1 =
      askNext { index := o.indexAfter previous } (tagged tag o.document) := by
  have hread := Query.read_plain s (services previous tag).request hfails hdeep
  rw [← matching_eq]
  unfold step
  split
  next answer notes heq =>
    rw [heq] at hread
    cases hread
    rfl

/-- The queries for the nodes of services whose names can be written. -/
theorem nodes_takes (s : Source) (found : Snapshot) (service : Text) (remaining : List Text)
    (answers : Nat → Outcome) (hexpected : ∀ i, (answers i).Expected)
    (hnames : ∀ name ∈ remaining, (Text.encode? name).isSome) :
    (nodes found service remaining).Takes s ((service :: remaining).map nodesRequest) answers
      ((gathered (service :: remaining) answers).foldl Snapshot.add found) := by
  induction remaining generalizing found service answers with
  | nil =>
    refine takes_of_plain (hexpected 0) fun hfails hdeep => ?_
    have hstep := nodes_step s found service [] hfails hdeep
    rw [gathered, gathered, List.append_nil]
    exact takes_of_finish hstep (.whole (by simpa using ⟨hfails, hdeep⟩))
  | cons name rest ih =>
    refine takes_of_plain (hexpected 0) fun hfails hdeep => ?_
    have hstep := nodes_step s found service (name :: rest) hfails hdeep
    rw [askNext, if_pos (hnames name List.mem_cons_self)] at hstep
    have hrest := ih ((Nodes.extract service (answers 0).document).1.foldl Snapshot.add found) name
      (fun i => answers (i + 1)) (fun i => hexpected (i + 1))
      fun other ho => hnames other (List.mem_cons_of_mem _ ho)
    rw [gathered, List.foldl_append]
    exact takes_of_ask hstep hfails hdeep hrest

theorem services_takes (s : Source) (previous : Int) (tag : Text) (answers : Nat → Outcome)
    (hexpected : ∀ i, (answers i).Expected)
    (hnames : ¬ (answers 0).Fails →
      ∀ name ∈ tagged tag (answers 0).document, (Text.encode? name).isSome) :
    (services previous tag).Takes s (asked previous tag (answers 0)) answers
      (.ofNodes ((answers 0).indexAfter previous)
        (gathered (tagged tag (answers 0).document) fun i => answers (i + 1))) := by
  refine takes_of_plain (hexpected 0) fun hfails hdeep => ?_
  have hstep := services_step s previous tag hfails hdeep
  have hnames := hnames hfails
  cases hleft : tagged tag (answers 0).document with
  | nil =>
    rw [hleft, askNext] at hstep
    exact takes_of_finish hstep (.whole (by simpa using ⟨hfails, hdeep⟩))
  | cons name rest =>
    rw [hleft] at hstep hnames
    rw [askNext, if_pos (hnames name List.mem_cons_self)] at hstep
    exact takes_of_ask hstep hfails hdeep (nodes_takes s _ name rest _
      (fun i => hexpected (i + 1)) fun other ho => hnames other (List.mem_cons_of_mem _ ho))

/-- **A poll is exact unless an answer is nested too deeply.** It ends after some answers, each to
a query of its own. If the documents of all of them can be read it has sent what it should, and
brings exactly the nodes named, or fails with the first query that does. -/
theorem exact_iff (s : Source) (previous : Int) (tag : Text) (answers : Nat → Outcome)
    (hexpected : ∀ i, (answers i).Expected)
    (hnames : ¬ (answers 0).Fails →
      ∀ name ∈ tagged tag (answers 0).document, (Text.encode? name).isSome) :
    ∃ n r, (services previous tag).after s (opening answers n) = .finish r ∧
      ((services previous tag).sent s (opening answers n)).length = n ∧
      (Exact previous tag answers ((services previous tag).sent s (opening answers n)) r ↔
        ∀ i < n, ¬ (answers i).TooDeep) := by
  obtain ⟨n, r, hcourse, hafter, hsent⟩ := services_takes s previous tag answers hexpected hnames
  refine ⟨n, r, hafter, ?_⟩
  rw [hsent]
  cases hcourse with
  | whole hall =>
    rw [List.take_length]
    have hexact := Exact.found (fun i hi => (hall i hi).1) (Snapshot.ofNodes_index _ _)
      (Snapshot.ofNodes_holds ((answers 0).indexAfter previous) _)
    exact ⟨rfl, fun _ i hi => (hall i hi).2, fun _ => hexact⟩
  | @failed i f hi hall hbad =>
    refine ⟨by rw [List.length_take]; omega, fun _ j hj => ?_, fun _ => ?_⟩
    · obtain rfl | hlt := Nat.eq_or_lt_of_le (Nat.le_of_lt_succ hj)
      · exact fun hdeep => hdeep.not_fails hbad
      · exact (hall j hlt).2
    · exact .failed hi (fun j hj => (hall j hj).1) hbad
  | @tooDeep i hi hall hbad =>
    refine ⟨by rw [List.length_take]; omega, fun hexact => ?_, fun hnone => ?_⟩
    · exact absurd hexact not_exact_tooDeep
    · exact absurd hbad (hnone i (Nat.lt_succ_self i))

/-- An answer as it should be. -/
def proper (body : String) : Outcome :=
  .ok ⟨200, [("X-Consul-Index", "5")], .ok (body.toList.map fun c => c.toNat.toUInt8)⟩

/-- A service with the tag and one without, and an answer with one node, another one twice and an
entry that is none. -/
def modest : Nat → Outcome
  | 0 => proper "\x7b\"c\": [\"m\"], \"d\": [\"n\", 1]\x7d"
  | _ => proper ("[\x7b\"Address\": \"a\", \"ServicePort\": 1\x7d, 3, "
      ++ "\x7b\"Address\": \"b\", \"ServicePort\": 1\x7d, "
      ++ "\x7b\"Address\": \"z\", \"ServiceAddress\": \"a\", \"ServicePort\": 1\x7d]")

theorem modest_exact :
    tagged "m" (modest 0).document = [("c" : Text)] ∧
      ∃ n r, (services 4 "m").after ⟨"http://c", "1s"⟩ (opening modest n) = .finish r ∧
        ((services 4 "m").sent ⟨"http://c", "1s"⟩ (opening modest n)).length = n ∧
        Exact 4 "m" modest ((services 4 "m").sent ⟨"http://c", "1s"⟩ (opening modest n)) r := by
  have hread (i : Nat) : ∃ body, (modest i) = proper body ∧
      (Query.readBody (body.toList.map fun c => c.toNat.toUInt8)).toBool = true := by
    cases i with
    | zero => exact ⟨_, rfl, by decide +kernel⟩
    | succ i => exact ⟨_, rfl, by decide +kernel⟩
  have hexpected (i : Nat) : (modest i).Expected := by
    obtain ⟨body, hbody, -⟩ := hread i
    rw [hbody]
    intro f hf
    cases hf
  have hplain (i : Nat) : ¬ (modest i).TooDeep := by
    obtain ⟨body, hbody, hgood⟩ := hread i
    rw [hbody]
    rintro ⟨bs, t, ⟨a, ha, -, hbs, -⟩, ht, hdeep⟩
    cases ha
    cases hbs
    rw [Query.readBody_tooDeep ht hdeep] at hgood
    cases hgood
  have hnames : tagged "m" (modest 0).document = [("c" : Text)] := by decide +kernel
  obtain ⟨n, r, hafter, hlength, hexact⟩ := exact_iff ⟨"http://c", "1s"⟩ 4 "m" modest hexpected
    fun _ name hname => by
      rw [hnames, List.mem_singleton] at hname
      rw [hname]
      decide
  exact ⟨hnames, n, r, hafter, hlength, hexact.mpr fun i _ => hplain i⟩

/-- A catalog that answers with lists opened one in the other. -/
def opened (k : Nat) (_ : Nat) : Outcome :=
  .ok ⟨200, [("X-Consul-Index", "5")], .ok (List.replicate k 0x5b)⟩

theorem opened_tooDeep {k : Nat} (hk : Json.maxDepth < k) (i : Nat) : (opened k i).TooDeep := by
  refine ⟨_, _, ⟨_, rfl, by simp, rfl, fun raw hraw => ⟨5, ?_⟩⟩, Text.decode?_opened k,
    Json.read_opened hk⟩
  have hfive : raw = "5" := by
    have hheader : Query.header? [("X-Consul-Index", "5")] Query.indexHeader = some "5" := by
      decide +kernel
    exact Option.some.inj (hraw.symm.trans hheader)
  rw [hfive]
  decide +kernel

/-- So it is not so that a poll always is exact: a body that is no document can end it in a way
nobody foresees. -/
theorem opened_not_exact :
    ¬ ∀ (s : Source) (previous : Int) (tag : Text) (answers : Nat → Outcome),
      (∀ i, (answers i).Expected) →
      (¬ (answers 0).Fails → ∀ name ∈ tagged tag (answers 0).document,
        (Text.encode? name).isSome) →
      ∃ n r, (services previous tag).after s (opening answers n) = .finish r ∧
        ((services previous tag).sent s (opening answers n)).length = n ∧
        Exact previous tag answers ((services previous tag).sent s (opening answers n)) r := by
  intro h
  have hdeep (i : Nat) : (opened 100000 i).TooDeep := opened_tooDeep (by decide) i
  obtain ⟨n, r, hafter, -, hexact⟩ := h ⟨"http://c", "1s"⟩ 0 "m" (opened 100000)
    (fun i f hf => by cases hf)
    fun _ name hname => by
      rw [(hdeep 0).document] at hname
      cases hname
  cases n with
  | zero => cases hafter
  | succ n =>
    have hstep := step_error
      (Query.read_tooDeep ⟨"http://c", "1s"⟩ (services 0 "m").request (hdeep 0))
    rw [opening_succ, after, hstep] at hafter
    cases hafter
    exact not_exact_tooDeep hexact

end Listing

end Catalog

end FleetProbe
