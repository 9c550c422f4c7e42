import FleetProbe.Log.Line
import FleetProbe.Proofs.Json.Lines
/-!
What the line of a log record says when values are attached to the record. The fields of the record
and the attached values share one object, and a value that is attached under the name of a field
stands in its place: the line is faithful to the record exactly where that does not happen, or
makes no difference.
-/

namespace FleetProbe

namespace Value

theorem isText_text (t u : Text) : (Value.text u).isText t = true ↔ u = t := by
  simp [isText]

theorem eq_text_of_isText {t : Text} {v : Value} (h : v.isText t = true) : v = .text t := by
  cases v with
  | text u => exact congrArg Value.text ((isText_text t u).mp h)
  | _ => cases h

theorem entry?_cons (e : Value × Value) (es : List (Value × Value)) (k : Text) :
    entry? (e :: es) k = if e.1.isText k then some e.2 else entry? es k := by
  unfold entry?
  rw [List.find?_cons]
  split
  · next h => simp [h]
  · next h => simp [h]

theorem mem_of_entry_eq {es : List (Value × Value)} {k : Text} {v : Value}
    (h : entry? es k = some v) : (.text k, v) ∈ es := by
  obtain ⟨e, he, rfl⟩ := Option.map_eq_some_iff.mp h
  have hkey : e.1 = .text k := eq_text_of_isText (by simpa using List.find?_some he)
  rw [← hkey]
  exact List.mem_of_find?_eq_some he

theorem entry?_putField (k : Text) (v : Value) (es : List (Value × Value)) (name : Text) :
    entry? (putField k v es) name = if name = k then some v else entry? es name := by
  induction es with
  | nil => simp only [putField, entry?_cons, isText_text, @eq_comm _ k name]
  | cons e es ih =>
    rw [putField]
    by_cases hkey : e.1.isText k = true
    · simp only [if_true, entry?_cons, eq_text_of_isText hkey, isText_text]
      by_cases hname : name = k
      · simp only [hname, if_true]
      · simp only [hname, Ne.symm hname, if_false]
    · rw [if_neg hkey, entry?_cons, entry?_cons, ih]
      by_cases hname : name = k
      · rw [hname, if_neg hkey, if_pos rfl]
        exact (if_pos rfl).symm
      · rw [if_neg hname, if_neg hname]

section PutAll

/-- Puts values under their names, one after the other. -/
def putAll (es : List (Value × Value)) (xs : List (Text × Value)) : List (Value × Value) :=
  xs.foldl (fun es (k, v) => putField k v es) es

theorem entry?_putAll_of_notMem {xs : List (Text × Value)} {k : Text} (h : k ∉ xs.map Prod.fst)
    (es : List (Value × Value)) : entry? (putAll es xs) k = entry? es k := by
  induction xs generalizing es with
  | nil => rfl
  | cons x xs ih =>
    rw [List.map_cons, List.mem_cons, not_or] at h
    exact (ih h.2 _).trans ((entry?_putField x.1 x.2 es k).trans (if_neg h.1))

theorem entry?_putAll_of_mem {xs : List (Text × Value)} (hdistinct : (xs.map Prod.fst).Nodup)
    {x : Text × Value} (hx : x ∈ xs) (es : List (Value × Value)) :
    entry? (putAll es xs) x.1 = some x.2 := by
  induction xs generalizing es with
  | nil => cases hx
  | cons y xs ih =>
    rw [List.map_cons, List.nodup_cons] at hdistinct
    obtain rfl | hx := List.mem_cons.mp hx
    · exact (entry?_putAll_of_notMem hdistinct.1 _).trans
        ((entry?_putField x.1 x.2 es x.1).trans (if_pos rfl))
    · exact ih hdistinct.2 hx _

end PutAll

end Value

namespace Log

open Value

/-- Names of what a record is made with, and of the two texts that are made from it. Nothing can be
attached under them. -/
def reserved : List String :=
  ["name", "msg", "args", "levelname", "levelno", "pathname", "filename", "module", "exc_info",
    "exc_text", "stack_info", "lineno", "funcName", "created", "msecs", "relativeCreated", "thread",
    "threadName", "processName", "process", "message", "asctime"]

/-- Names that stand for something of the record itself, also where a value can be attached under
them. -/
def recordNames : List String := "service_name" :: "taskName" :: reserved

/-- Values to attach, each under a name of its own under which one can be attached. -/
structure Extras where
  entries : List (Text × Value)
  distinct : (entries.map Prod.fst).Nodup
  admitted : ∀ e ∈ entries, e.1.display ∉ reserved

/-- The attached values that are no part of the record. -/
def shown (es : List (Text × Value)) : List (Text × Value) :=
  es.filter fun e => e.1.display ∉ recordNames

theorem shown_cons_of_mem {e : Text × Value} {es : List (Text × Value)}
    (h : e.1.display ∈ recordNames) : shown (e :: es) = shown es :=
  List.filter_cons_of_neg (by simpa using h)

theorem shown_cons_of_notMem {e : Text × Value} {es : List (Text × Value)}
    (h : e.1.display ∉ recordNames) : shown (e :: es) = e :: shown es :=
  List.filter_cons_of_pos (by simpa using h)

namespace Record

def attachAll (r : Record) (es : List (Text × Value)) : Record :=
  es.foldl (fun r e => r.attach e.1 e.2) r

/-- The service that a record names once values are attached. -/
def serviceOf (given : Option Value) (es : List (Text × Value)) : Option Value :=
  es.foldl (fun s e => if e.1.display = "service_name" then some e.2 else s) given

theorem fields_named : ∀ p ∈ fields, p.1 ∈ recordNames := by decide

theorem hidden_named : ∀ name ∈ hidden, name ∈ recordNames := by decide

/-- What attaching a value does to a record: it names the service, or does nothing, or is one more
value to show. -/
theorem attach_cases (r : Record) {name : Text} (v : Value) (h : name.display ∉ reserved)
    (hnew : name ∉ r.extras.map Prod.fst) :
    (name.display = "service_name" ∧ r.attach name v = { r with service := some v }) ∨
    (name.display = "taskName" ∧ r.attach name v = r) ∨
    (name.display ∉ recordNames ∧ r.attach name v = { r with extras := r.extras ++ [(name, v)] }) := by
  by_cases hservice : name.display = "service_name"
  · refine .inl ⟨hservice, ?_⟩
    rw [attach, hservice]
    rfl
  by_cases htask : name.display = "taskName"
  · refine .inr (.inl ⟨htask, ?_⟩)
    rw [attach, htask]
    rfl
  have hnames : name.display ∉ recordNames := by
    rw [recordNames, List.mem_cons, List.mem_cons, not_or, not_or]
    exact ⟨hservice, htask, h⟩
  refine .inr (.inr ⟨hnames, ?_⟩)
  have hfield : fields.lookup name.display = none := by
    refine List.lookup_eq_none_iff.mpr fun p hp => bne_iff_ne.mpr fun heq => hnames ?_
    rw [heq]
    exact fields_named p hp
  have hhidden : hidden.contains name.display = false := by
    simpa using fun hmem => hnames (hidden_named _ hmem)
  have hany : r.extras.any (·.1 == name) = false := by
    refine List.any_eq_false.mpr fun e he heq => hnew ?_
    rw [← beq_iff_eq.mp heq]
    exact List.mem_map_of_mem he
  rw [attach, hfield, hhidden, hany]
  rfl

theorem serviceOf_cons (given : Option Value) (e : Text × Value) (es : List (Text × Value)) :
    serviceOf given (e :: es) =
      serviceOf (if e.1.display = "service_name" then some e.2 else given) es := rfl

/-- Attached values name the service or are shown, and change nothing else in a record. -/
theorem attachAll_eq (r : Record) (es : List (Text × Value))
    (hadmitted : ∀ e ∈ es, e.1.display ∉ reserved)
    (hdistinct : ((r.extras ++ es).map Prod.fst).Nodup) :
    r.attachAll es =
      { r with service := serviceOf r.service es, extras := r.extras ++ shown es } := by
  induction es generalizing r with
  | nil => simp [attachAll, serviceOf, shown]
  | cons e es ih =>
    obtain ⟨hfirst, hrest⟩ := List.forall_mem_cons.mp hadmitted
    have hstep : r.attachAll (e :: es) = (r.attach e.1 e.2).attachAll es := rfl
    have hless : ((r.extras ++ es).map Prod.fst).Nodup := by
      refine hdistinct.sublist (List.Sublist.map _ ?_)
      exact List.Sublist.append_left (List.sublist_cons_self e es) _
    have hnew : e.1 ∉ r.extras.map Prod.fst := by
      rw [List.map_append, List.map_cons] at hdistinct
      exact fun hmem => (List.nodup_append.mp hdistinct).2.2 _ hmem _ List.mem_cons_self rfl
    rw [hstep]
    obtain ⟨hname, he⟩ | ⟨hname, he⟩ | ⟨hname, he⟩ := attach_cases r e.2 hfirst hnew
    · have hhidden : shown (e :: es) = shown es := shown_cons_of_mem (by simp [recordNames, hname])
      rw [he, hhidden, ih { r with service := some e.2 } hrest hless, serviceOf_cons, if_pos hname]
    · have hhidden : shown (e :: es) = shown es := shown_cons_of_mem (by simp [recordNames, hname])
      rw [he, hhidden, ih r hrest hless, serviceOf_cons, if_neg (by simp [hname])]
    · have hservice : e.1.display ≠ "service_name" := fun h => hname (by simp [h, recordNames])
      rw [he, shown_cons_of_notMem hname, serviceOf_cons, if_neg hservice,
        ih { r with extras := r.extras ++ [e] } hrest (by simpa using hdistinct), List.append_assoc,
        List.singleton_append]

/-- The record as its line is written, with these values attached to it and no others. -/
def logged (r : Record) (extras : Extras) : Record :=
  { r with extras := [] }.attachAll extras.entries

theorem logged_eq (r : Record) (extras : Extras) :
    r.logged extras =
      { r with service := serviceOf r.service extras.entries, extras := shown extras.entries } :=
  attachAll_eq _ _ extras.admitted extras.distinct

/-- The fields of the record itself, whatever else is attached. -/
def ownFields (r : Record) (extras : Extras) : Except Fault (List (Value × Value)) :=
  { r with service := serviceOf r.service extras.entries }.own

/-- The line is one object on one line, in which every field of the record has the value that the
record gives it, and every other attached value stands under its own name. -/
def Faithful (r : Record) (extras : Extras) : Prop :=
  ∃ own object line, r.ownFields extras = .ok own ∧ (r.logged extras).entries = .ok object ∧
    (r.logged extras).json = .ok line ∧ line = Json.write Json.readable (.map object) ∧
    line.Unbroken ∧
    (∀ name v, entry? own name = some v → entry? object name = some v) ∧
    ∀ e ∈ extras.entries, e.1.display ∉ recordNames → entry? own e.1 = none →
      entry? object e.1 = some e.2

theorem entries_logged {r : Record} {extras : Extras} {own : List (Value × Value)}
    (h : r.ownFields extras = .ok own) :
    (r.logged extras).entries = .ok (putAll own (shown extras.entries)) := by
  have hown : (r.logged extras).own = .ok own := by
    rw [logged_eq]
    exact h
  have hextras : (r.logged extras).extras = shown extras.entries := by rw [logged_eq]
  rw [entries, hown, hextras]
  rfl

theorem mem_shown {extras : Extras} {e : Text × Value} (he : e ∈ extras.entries)
    (hname : e.1.display ∉ recordNames) : e ∈ shown extras.entries :=
  List.mem_filter.mpr ⟨he, decide_eq_true hname⟩

theorem shown_distinct (extras : Extras) : ((shown extras.entries).map Prod.fst).Nodup :=
  extras.distinct.sublist (List.filter_sublist.map _)

/-- Where a line is faithful, no value is attached over another one of the record. -/
theorem Faithful.agrees {r : Record} {extras : Extras} (h : r.Faithful extras) :
    ∃ own, r.ownFields extras = .ok own ∧ ∀ e ∈ extras.entries, e.1.display ∉ recordNames →
      ∀ v, entry? own e.1 = some v → e.2 = v := by
  obtain ⟨own, object, line, hown, hobject, -, -, -, hkept, -⟩ := h
  refine ⟨own, hown, fun e he hname v hv => ?_⟩
  obtain rfl : putAll own (shown extras.entries) = object :=
    Except.ok.inj ((entries_logged hown).symm.trans hobject)
  have hattached := entry?_putAll_of_mem (shown_distinct extras) (mem_shown he hname) own
  exact Option.some.inj (hattached.symm.trans (hkept e.1 v hv))

theorem json_logged {r : Record} {extras : Extras} {object : List (Value × Value)}
    (h : (r.logged extras).entries = .ok object) :
    (r.logged extras).json = .ok (Json.write Json.readable (.map object)) := by
  rw [json, h]
  rfl

/-- Where no value is attached over another one of the record, the line is faithful. -/
theorem faithful_of_agrees {r : Record} {extras : Extras} {own : List (Value × Value)}
    (hown : r.ownFields extras = .ok own)
    (h : ∀ e ∈ extras.entries, e.1.display ∉ recordNames → ∀ v, entry? own e.1 = some v → e.2 = v) :
    r.Faithful extras := by
  have hobject := entries_logged hown
  refine ⟨own, _, _, hown, hobject, json_logged hobject, rfl, Json.write_unbroken _ _, ?_, ?_⟩
  · intro name v hv
    by_cases hmem : name ∈ (shown extras.entries).map Prod.fst
    · obtain ⟨e, he, rfl⟩ := List.mem_map.mp hmem
      obtain ⟨hentry, hname⟩ := List.mem_filter.mp he
      rw [entry?_putAll_of_mem (shown_distinct extras) he,
        h e hentry (of_decide_eq_true hname) v hv]
    · rw [entry?_putAll_of_notMem hmem, hv]
  · intro e he hname _
    exact entry?_putAll_of_mem (shown_distinct extras) (mem_shown he hname) own

/-- The names under which a line shows what the record itself says. -/
def fieldNames : List Text :=
  ["timestamp", "level", "service", "logger", "message", "module", "function", "line", "exception"]

/-- What a line says of its record, given its time, its message and its cause. -/
def told (r : Record) (stamp message : Text) (cause : Option (Option Trouble)) :
    List (String × Value) :=
  [("timestamp", .text stamp), ("level", r.levelName), ("service", r.service.getD "unknown"),
    ("logger", r.logger), ("message", .text message), ("module", r.module),
    ("function", r.function), ("line", r.line)] ++
    cause.toList.map fun t => ("exception", troubleValue t)

theorem own_ok_iff (r : Record) (own : List (Value × Value)) :
    r.own = .ok own ↔ ∃ stamp message cause, Stamp.precise r.created = .ok stamp ∧
      r.text = .ok message ∧ r.cause? = .ok cause ∧
      own = (r.told stamp message cause).map fun e => (Value.ofString e.1, e.2) := by
  unfold Record.own
  cases hstamp : Stamp.precise r.created with
  | error f => simp [bind, Except.bind]
  | ok stamp =>
    cases hmessage : r.text with
    | error f => simp [bind, Except.bind]
    | ok message =>
      cases hcause : r.cause? with
      | error f => simp [bind, Except.bind]
      | ok cause => simp [bind, Except.bind, told, eq_comm]

theorem own_named {r : Record} {own : List (Value × Value)} (h : r.own = .ok own) {name : Text}
    {v : Value} (hv : entry? own name = some v) : name ∈ fieldNames := by
  obtain ⟨stamp, message, cause, -, -, -, rfl⟩ := (own_ok_iff r own).mp h
  obtain ⟨e, he, hname⟩ := List.mem_map.mp (mem_of_entry_eq hv)
  have hkey : Text.ofString e.1 = name := Value.text.inj (congrArg Prod.fst hname)
  have hnames : ∀ key ∈ ["timestamp", "level", "service", "logger", "message", "module",
      "function", "line", "exception"], Text.ofString key ∈ fieldNames := by decide
  have hfst := List.mem_map_of_mem (f := Prod.fst) he
  rw [← hkey]
  cases cause with
  | none => exact hnames e.1 (List.mem_append_left ["exception"] hfst)
  | some t => exact hnames e.1 hfst

/-- **A line is faithful where nothing is attached over what it says of its record.** The fields of
a record and the values attached to it share one object: the line is one object on one line with
every field as the record gives it and every other attached value under its own name exactly where
the fields can be told and no value attached under the name of one of them is another value. No
value under another name does any harm. -/
theorem line_faithful_iff (r : Record) (extras : Extras) :
    (r.Faithful extras ↔ ∃ own, r.ownFields extras = .ok own ∧
      ∀ e ∈ extras.entries, e.1.display ∉ recordNames → ∀ v, entry? own e.1 = some v → e.2 = v) ∧
    ((∀ e ∈ extras.entries, e.1 ∉ fieldNames) →
      (r.Faithful extras ↔ ∃ own, r.ownFields extras = .ok own)) := by
  have hexact : r.Faithful extras ↔ ∃ own, r.ownFields extras = .ok own ∧
      ∀ e ∈ extras.entries, e.1.display ∉ recordNames → ∀ v, entry? own e.1 = some v → e.2 = v :=
    ⟨Faithful.agrees, fun ⟨own, hown, h⟩ => faithful_of_agrees hown h⟩
  refine ⟨hexact, fun hnames => ?_⟩
  rw [hexact]
  constructor
  · rintro ⟨own, hown, -⟩
    exact ⟨own, hown⟩
  · rintro ⟨own, hown⟩
    exact ⟨own, hown, fun e he _ v hv => absurd (own_named hown hv) (hnames e he)⟩

/-- A record of a greeting at the start of 1970. -/
def greeting : Record :=
  { logger := "probes", levelName := "INFO", module := "task", function := "run", line := .int 10,
    message := "hello", arguments := .several [], created := .int 0, milliseconds := .int 0 }

/-- A level of another kind. -/
def tide : Extras := ⟨[("level", "high")], by decide, by decide⟩

/-- The start of 1970 can be told, however its fraction of a second is rounded. -/
theorem precise_start : ∃ t, Stamp.precise (.int 0) = .ok t := by
  obtain ⟨seconds, micro, hmicro, hseconds⟩ : ∃ (seconds : Int) (micro : Nat),
      Stamp.microseconds (.int 0) = .ok (seconds, micro) ∧ seconds ∈ [-1, 0, 1] := by
    unfold Stamp.microseconds Stamp.split
    dsimp only [Except.map]
    generalize Stamp.nearest (0 * 1000000) = micro
    split
    · exact ⟨1, _, rfl, by decide⟩
    · split
      · exact ⟨-1, _, rfl, by decide⟩
      · exact ⟨0, _, rfl, by decide⟩
  have hmoment : ∀ seconds ∈ [-1, 0, 1], Stamp.moment seconds = .ok (.ofSeconds seconds) ∧
      ¬ ((Moment.ofSeconds seconds).year < 1 ∨ 9999 < (Moment.ofSeconds seconds).year) ∧
      ¬ seconds < Stamp.firstSecond :=
    List.forall_mem_cons.mpr ⟨⟨rfl, by decide, by decide⟩,
      List.forall_mem_cons.mpr ⟨⟨rfl, by decide, by decide⟩,
        List.forall_mem_singleton.mpr ⟨rfl, by decide, by decide⟩⟩⟩
  obtain ⟨hm, hyear, hfirst⟩ := hmoment seconds hseconds
  unfold Stamp.precise
  simp only [hmicro, hm, bind, Except.bind, hyear, hfirst, if_false]
  exact ⟨_, rfl⟩

theorem told_level (r : Record) (stamp message : Text) (cause : Option (Option Trouble)) :
    entry? ((r.told stamp message cause).map fun e => (Value.ofString e.1, e.2)) "level" =
      some r.levelName := by
  have hother : ¬ (Value.ofString "timestamp").isText "level" = true := by decide
  have hlevel : (Value.ofString "level").isText "level" = true := by decide
  simp only [told, List.cons_append, List.map_cons, entry?_cons, hother, hlevel, if_true,
    Bool.false_eq_true, if_false]

/-- The level that the line shows is not that of the record. -/
theorem tide_level_lost : ∃ own object,
    greeting.ownFields tide = .ok own ∧ entry? own "level" = some (.ofString "INFO") ∧
    (greeting.logged tide).json = .ok (Json.write Json.readable (.map object)) ∧
    entry? object "level" = some (.ofString "high") ∧ ¬ greeting.Faithful tide := by
  obtain ⟨stamp, hstamp⟩ := precise_start
  have hown : greeting.ownFields tide =
      .ok ((greeting.told stamp "hello" none).map fun e => (Value.ofString e.1, e.2)) :=
    (own_ok_iff _ _).mpr ⟨stamp, "hello", none, hstamp, rfl, rfl, rfl⟩
  have htide : (Text.ofString "level", Value.ofString "high") ∈ tide.entries :=
    List.mem_singleton_self _
  have hname : Text.display "level" ∉ recordNames := by decide
  have hobject := entries_logged hown
  refine ⟨_, _, hown, told_level .., json_logged hobject, ?_, fun h => ?_⟩
  · exact entry?_putAll_of_mem (shown_distinct tide) (mem_shown htide hname) _
  · obtain ⟨own, hown', hagrees⟩ := h.agrees
    obtain rfl := Except.ok.inj (hown.symm.trans hown')
    have htexts : Text.ofString "high" = Text.ofString "INFO" :=
      Value.text.inj (hagrees _ htide hname _ (told_level ..))
    exact absurd htexts (by decide)

end Record

end Log

end FleetProbe
