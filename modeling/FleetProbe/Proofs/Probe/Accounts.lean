import Mathlib.Tactic.IntervalCases
import FleetProbe.Proofs.Client.Reckoning
import FleetProbe.Proofs.Metrics.Reported
import FleetProbe.Proofs.Probe.Steps
import FleetProbe.Proofs.Probe.Survival
/-!
The accounts of a task. Its own counts, the requests on record and what is said of failures are kept
at different points of a probe, which may be cut after its first command; whenever the task looks
whether to stop, they agree.
-/

namespace FleetProbe.Probe

open Effect Exchange Metrics

/-- What failed in the course of some effects, and the command that was written last. -/
structure Toll where
  connects : Nat := 0
  /-- Probes that failed by their first command. -/
  sets : Nat := 0
  /-- Probes that failed by their second command. -/
  gets : Nat := 0
  last : Option Phase := none

namespace Toll

def failures (x : Toll) : Nat := x.connects + x.sets + x.gets

/-- A probe that fails is put down to the command that was written last. -/
def fail (x : Toll) : Toll :=
  match x.last with
  | some .set => { x with sets := x.sets + 1 }
  | some .get => { x with gets := x.gets + 1 }
  | none => x

def note {α : Type} (x : Toll) : Effect α → Toll
  | .send bs => { x with last := phaseOf? bs }
  | .connectFailed => { x with connects := x.connects + 1 }
  | .probeFailed => x.fail
  | _ => x

end Toll

section Counts

variable {α : Type}

def toll (es : List (Effect α)) : Toll := es.foldl Toll.note {}

/-- How often a command of a probe is on record. -/
def asked (p : Phase) (es : List (Effect α)) : Nat :=
  (recorded es).countP fun r => r.1 = (p.command : Text)

@[simp]
theorem toll_append (es fs : List (Effect α)) : toll (es ++ fs) = fs.foldl Toll.note (toll es) :=
  List.foldl_append

@[simp]
theorem asked_append (p : Phase) (es fs : List (Effect α)) :
    asked p (es ++ fs) = asked p es + asked p fs := by
  rw [asked, recorded_append, List.countP_append]
  rfl

/-- A probe under way only changes what was written last. -/
theorem foldl_note_of_probing {es : List (Effect α)} (h : ∀ x ∈ es, x.Probing) (x : Toll) :
    es.foldl Toll.note x = { x with last := lastWritten x.last es } := by
  induction es generalizing x with
  | nil => rfl
  | cons e es ih =>
    obtain ⟨he, hes⟩ := List.forall_mem_cons.mp h
    rw [List.foldl_cons, ih hes]
    cases e with
    | send | timedOut | report => rfl
    | connect | abandon | close | started | stopped | connectFailed | probeFailed => cases he

theorem asked_of_ordered {es : List (Effect α)} {k n : Nat}
    (h : (recorded es).map Prod.fst = (commands.drop k).take n) (hle : k + n ≤ 2) :
    asked .set es = min (k + n) 1 - min k 1 ∧ asked .get es = (k + n - 1) - (k - 1) := by
  have hcount (p : Phase) :
      asked p es = ((commands.drop k).take n).countP fun c => c = (p.command : Text) := by
    rw [← h, List.countP_map]
    rfl
  rw [hcount, hcount]
  have hk : k ≤ 2 := by omega
  have hn : n ≤ 2 - k := by omega
  interval_cases k <;> interval_cases n <;> decide

end Counts

variable {α : Type} [Quantity α]

/-- The accounts of a task after some effects: what failed, what it counts itself and what it has
reported. A probe has got some of its answers. -/
structure Books (s : Setup α) (probes failures answers : Nat) (es : List (Effect α)) : Prop where
  failed : failures = (toll es).failures
  told : (reports es).countP Report.isFailure = failures
  sets : asked .set es = probes + (toll es).gets + answers
  gets : asked .get es = probes
  timed : Timed s.timeout es
  own : ∀ r ∈ reports es, r.target = s.target ∧ r.Lasting

namespace Books

variable {s : Setup α} {probes failures answers : Nat} {es fs : List (Effect α)}

theorem nil (s : Setup α) : Books s 0 0 0 [] :=
  ⟨rfl, rfl, rfl, rfl, .of_silent rfl fun _ => rfl, by simp⟩

omit [Quantity α] in
theorem asked_of_unrecorded (h : recorded fs = []) (p : Phase) :
    asked p (es ++ fs) = asked p es := by
  rw [asked_append, asked, asked, h]
  rfl

/-- Effects that leave nothing in the accounts, apart from a claim. -/
theorem quiet (h : Books s probes failures answers es)
    (htoll : ∀ x : Toll, fs.foldl Toll.note x = x)
    (hfs : reports fs = [] ∨ ∃ owner, reports fs = [.claim s.target owner])
    (hsaid : ∀ command, fs.countP (isTimedOut command) = 0) :
    Books s probes failures answers (es ++ fs) := by
  have hrecorded : recorded fs = [] := by
    obtain hfs | ⟨owner, hfs⟩ := hfs
    · rw [recorded, hfs, List.filterMap_nil]
    · rw [recorded, hfs]
      rfl
  refine ⟨?_, ?_, ?_, ?_, h.timed.append (.of_silent hrecorded hsaid), fun r hr => ?_⟩
  · rw [toll_append, htoll]
    exact h.failed
  · rw [reports_append, List.countP_append, h.told]
    obtain hfs | ⟨owner, hfs⟩ := hfs <;> rw [hfs] <;> rfl
  · rw [asked_of_unrecorded hrecorded, toll_append, htoll]
    exact h.sets
  · rw [asked_of_unrecorded hrecorded]
    exact h.gets
  · rw [reports_append] at hr
    obtain hr | hr := List.mem_append.mp hr
    · exact h.own r hr
    · obtain hfs | ⟨owner, hfs⟩ := hfs
      · rw [hfs] at hr
        cases hr
      · rw [hfs] at hr
        cases List.mem_singleton.mp hr
        exact ⟨rfl, trivial⟩

/-- A failure is counted and told. By a probe that fails, the answers it has got are put down. -/
theorem fail (h : Books s probes failures answers es) (hfs : reports fs = [.failure s.target])
    (hsaid : ∀ command, fs.countP (isTimedOut command) = 0)
    (hfailures : (toll (es ++ fs)).failures = (toll es).failures + 1)
    (hgets : (toll (es ++ fs)).gets = (toll es).gets + answers) :
    Books s probes (failures + 1) 0 (es ++ fs) := by
  have hrecorded : recorded fs = [] := by
    rw [recorded, hfs]
    rfl
  refine ⟨?_, ?_, ?_, ?_, h.timed.append (.of_silent hrecorded hsaid), fun r hr => ?_⟩
  · rw [hfailures, ← h.failed]
  · rw [reports_append, hfs, List.countP_append, h.told]
    rfl
  · rw [asked_of_unrecorded hrecorded, hgets, h.sets]
    omega
  · rw [asked_of_unrecorded hrecorded]
    exact h.gets
  · rw [reports_append, hfs] at hr
    obtain hr | hr := List.mem_append.mp hr
    · exact h.own r hr
    · cases List.mem_singleton.mp hr
      exact ⟨rfl, trivial⟩

theorem failConnect (h : Books s probes failures 0 es) :
    Books s probes (failures + 1) 0 (es ++ [.connectFailed, .report (.failure s.target)]) := by
  refine h.fail rfl (fun _ => rfl) ?_ ?_
  · simp only [toll_append, List.foldl_cons, List.foldl_nil, Toll.note, Toll.failures]
    omega
  · simp only [toll_append, List.foldl_cons, List.foldl_nil, Toll.note, Nat.add_zero]

theorem failProbe {p : Phase} (h : Books s probes failures p.rank es)
    (hp : (toll es).last = some p) :
    Books s probes (failures + 1) 0
      (es ++ [.probeFailed, .report (.failure s.target), .close]) := by
  refine h.fail rfl (fun _ => rfl) ?_ ?_
  · simp only [toll_append, List.foldl_cons, List.foldl_nil, Toll.note, Toll.fail, hp,
      Toll.failures]
    cases p <;> dsimp only <;> omega
  · simp only [toll_append, List.foldl_cons, List.foldl_nil, Toll.note, Toll.fail, hp]
    cases p <;> rfl

/-- What a probe records goes into the accounts; with both answers it is complete. -/
theorem probe {n : Nat} {before : Option Phase} {o : Outcome α}
    (h : Books s probes failures answers es) (ho : Exchange.Accounted s before answers o)
    (hcalm : ∀ x ∈ o.effects, x.Probing)
    (hn : (recorded o.effects).map Prod.fst = (commands.drop answers).take n)
    (hfirst : answers ≤ 1) (hle : answers + n ≤ 2) :
    Books s (probes + (answers + n) / 2) failures ((answers + n) % 2) (es ++ o.effects) := by
  obtain ⟨hset, hget⟩ := asked_of_ordered hn hle
  have htoll := foldl_note_of_probing hcalm (toll es)
  refine ⟨?_, ?_, ?_, ?_, h.timed.append ho.timed, fun r hr => ?_⟩
  · rw [toll_append, htoll]
    exact h.failed
  · have hnone : (reports o.effects).countP Report.isFailure = 0 := by
      rw [List.countP_eq_zero]
      intro r hr
      obtain ⟨command, status, x, rfl⟩ := ho.own r hr
      simp [Report.isFailure]
    rw [reports_append, List.countP_append, h.told, hnone, Nat.add_zero]
  · rw [asked_append, hset, toll_append, htoll, h.sets]
    dsimp only
    omega
  · rw [asked_append, hget, h.gets]
    omega
  · rw [reports_append] at hr
    obtain hr | hr := List.mem_append.mp hr
    · exact h.own r hr
    · obtain ⟨command, status, x, rfl⟩ := ho.own r hr
      exact ⟨rfl, trivial⟩

end Books

namespace Task

variable {t : Task α} {es fs : List (Effect α)} {now : α}

/-- The answers that a probe under way has got. -/
def answers (t : Task α) : Nat :=
  match t.wait with
  | .reply w => w.phase.rank
  | _ => 0

/-- The accounts agree, for a task that is at no command. -/
abbrev Even (t : Task α) (es : List (Effect α)) : Prop := Books t.setup t.probes t.failures 0 es

/-- The accounts agree but for the probe under way, whose command is the one written last. -/
structure Balanced (t : Task α) (es : List (Effect α)) : Prop where
  books : Books t.setup t.probes t.failures t.answers es
  last : ∀ w, t.wait = .reply w → (toll es).last = some w.phase

/-- What comes after some effects: the accounts are kept, or the task finds that it is to stop with
its accounts even, or it ends by something else. -/
inductive Goes (es : List (Effect α)) (n : Next α) : Prop where
  | on (hfate : n.task.fate? = none) (h : Balanced n.task (es ++ n.effects))
  | returns (u : Task α) (fs : List (Effect α)) (hn : n = (u.shutdown .returned).after fs)
    (hstop : u.stopRequested = true) (h : Even u (es ++ fs))
  | otherwise (how : Ending) (hfate : n.task.fate? = some how) (hhow : how ≠ .returned)

theorem Goes.after {n : Next α} (h : Goes (es ++ fs) n) : Goes es (n.after fs) := by
  cases h with
  | on hfate h =>
    refine .on hfate ?_
    rw [Next.after, ← List.append_assoc]
    exact h
  | returns u gs hn hstop h =>
    rw [List.append_assoc] at h
    refine .returns u (fs ++ gs) ?_ hstop h
    rw [hn, Next.after, Next.after, Next.after, List.append_assoc]
  | otherwise how hfate hhow => exact .otherwise how hfate hhow

omit [Quantity α] in
theorem fate?_shutdown (t : Task α) (e : Ending) : (t.shutdown e).task.fate? = some e := by
  unfold shutdown
  dsimp only
  split
  · rfl
  · rfl

theorem Goes.balanced {n : Next α} (h : Goes es n) (hfate : n.task.fate? = none) :
    Balanced n.task (es ++ n.effects) := by
  cases h with
  | on _ h => exact h
  | returns u fs hn =>
    rw [hn] at hfate
    cases (fate?_shutdown u _).symm.trans hfate
  | otherwise how hhow => cases hhow.symm.trans hfate

theorem Goes.returned {n : Next α} (h : Goes es n) (hfate : n.task.fate? = some .returned) :
    ∃ u fs, n = (u.shutdown .returned).after fs ∧ u.stopRequested = true ∧ Even u (es ++ fs) := by
  cases h with
  | on hnone => cases hfate.symm.trans hnone
  | returns u fs hn hstop h => exact ⟨u, fs, hn, hstop, h⟩
  | otherwise how hhow hne =>
    cases hfate.symm.trans hhow
    exact absurd rfl hne

theorem shutdown_goes (t : Task α) {how : Ending} (hhow : how ≠ .returned) :
    Goes es (t.shutdown how) :=
  .otherwise how (fate?_shutdown t how) hhow

omit [Quantity α] in
theorem answers_of_ne (hw : ∀ w, t.wait ≠ .reply w) : t.answers = 0 := by
  unfold answers
  split
  · next w hr => exact absurd hr (hw w)
  · rfl

theorem Even.balanced (h : Even t es) (hw : ∀ w, t.wait ≠ .reply w) : Balanced t es := by
  refine ⟨?_, fun w hr => absurd hr (hw w)⟩
  rw [answers_of_ne hw]
  exact h

theorem Balanced.even (h : Balanced t es) (hw : ∀ w, t.wait ≠ .reply w) : Even t es := by
  have hbooks := h.books
  rwa [answers_of_ne hw] at hbooks

theorem pause_goes (h : Even t es) (now : α) (delay : TimeLimit α) :
    Goes es (t.pause now delay) := by
  unfold pause
  split
  · exact shutdown_goes t (by simp)
  · split
    · next hstop => exact .returns t [] rfl hstop (by simpa using h)
    · refine .on rfl ?_
      rw [List.append_nil]
      exact Even.balanced h (by simp)

theorem failConnect_goes (h : Even t es) (now : α) : Goes es (t.failConnect now) :=
  Goes.after (pause_goes (t := { t.countFailure with stage := .backoff }) h.failConnect now _)

theorem connect_goes (h : Even t es) (now : α) : Goes es (t.connect now) := by
  unfold connect
  dsimp only
  split
  · exact failConnect_goes (t := { t with stage := .connecting }) h now
  · split
    · exact shutdown_goes _ (by simp)
    · refine .on rfl (Even.balanced ?_ (by simp))
      exact h.quiet (fun _ => rfl) (.inl rfl) fun _ => rfl

theorem settle_goes {k : Nat} {o : Outcome α} (h : Books t.setup t.probes t.failures k es)
    (hk : k ≤ 1) (ho : Reckons t.setup (toll es).last k o) (hcalm : ∀ x ∈ o.effects, x.Probing)
    (now : α) : Goes es (t.settle now o) := by
  unfold settle
  dsimp only
  refine Goes.after ?_
  obtain ⟨f, hf, hcrash⟩ | hkept := ho
  · obtain ⟨c, hc⟩ : ∃ c, crash? f = some c := by
      cases f with
      | client g => exact absurd rfl (hcrash g)
      | command g => exact ⟨_, rfl⟩
      | time g => exact ⟨_, rfl⟩
    simp only [hf, hc]
    exact shutdown_goes _ (by simp)
  -- The probe stands at the command after those on record, or is over.
  · obtain ⟨n, hn, hwaits, hfinished, hfailed⟩ := hkept.ordered
    have hlast : (toll (es ++ o.effects)).last = lastWritten (toll es).last o.effects := by
      rw [toll_append, foldl_note_of_probing hcalm]
    split
    · next w hw =>
      obtain ⟨hrank, hwritten⟩ := hwaits w hw
      have hone := w.phase.rank_le
      have hbooks := h.probe hkept hcalm hn hk (by omega)
      rw [← hrank, Nat.div_eq_of_lt (by omega), Nat.mod_eq_of_lt (by omega)] at hbooks
      refine .on rfl ⟨?_, ?_⟩
      · rw [List.append_nil]
        exact hbooks
      · rintro v ⟨⟩
        rw [List.append_nil, hlast, hwritten]
    · next hover =>
      have hend := hfinished hover
      have hbooks := h.probe hkept hcalm hn hk (by omega)
      rw [hend] at hbooks
      exact pause_goes (t := { t with client := some o.client, probes := t.probes + 1 }) hbooks
        now _
    · next f hf =>
      split
      · exact shutdown_goes _ (by simp)
      · next hnone =>
        obtain ⟨g, rfl⟩ : ∃ g, f = .client g := by
          cases f with
          | client g => exact ⟨g, rfl⟩
          | command | time => cases hnone
        obtain ⟨p, hrank, hwritten⟩ := hfailed g hf
        have hone := p.rank_le
        have hbooks := h.probe hkept hcalm hn hk (by omega)
        rw [← hrank, Nat.div_eq_of_lt (by omega), Nat.mod_eq_of_lt (by omega)] at hbooks
        exact .on rfl (Even.balanced (hbooks.failProbe (hlast.trans hwritten)) (by simp))

/-- A probe goes on from the command that waits. -/
theorem reply_goes {w : Waiting α} {o : Outcome α} (h : Balanced t es) (hw : t.wait = .reply w)
    (ho : Reckons t.setup (some w.phase) w.phase.rank o) (hcalm : ∀ x ∈ o.effects, x.Probing)
    (now : α) : Goes es (t.settle now o) := by
  have hbooks := h.books
  rw [answers, hw] at hbooks
  rw [← h.last w hw] at ho
  exact settle_goes hbooks w.phase.rank_le ho hcalm now

theorem turn_goes (h : Even t es) (now : α) : Goes es (t.turn now) := by
  unfold turn
  split
  · next hstop => exact .returns t [] rfl hstop (by simpa using h)
  · split
    · exact connect_goes h now
    · next c hc =>
      exact settle_goes h (Nat.zero_le 1) (begin_reckons (s := t.setup) now _ c)
        (begin_within now c).calm now

/-- A round begins with even accounts. -/
theorem round_even {u : Task α} {e : Event} (h : Balanced t es) (hu : t.round? now e = some u)
    (hfs : fs = [] ∨ fs = [.started, .report (.claim u.target u.id)]) : Even u (es ++ fs) := by
  have heven : Even u es := by
    obtain ⟨-, hw, rfl⟩ | ⟨-, ⟨d, hw⟩, rfl⟩ | ⟨-, ⟨d, hw, -⟩, rfl⟩ | ⟨-, ⟨d, hw⟩, rfl⟩ :=
      round?_eq_some hu
    · exact h.even (by simp [hw])
    · exact h.even (t := t) (by simp [hw])
    · exact h.even (by simp [hw])
    · exact h.even (t := t) (by simp [hw])
  obtain rfl | rfl := hfs
  · rw [List.append_nil]
    exact heven
  · exact heven.quiet (fun _ => rfl) (.inr ⟨u.id, rfl⟩) fun _ => rfl

section Steps

variable (hfate : t.fate? = none) (h : Balanced t es)

include hfate h

theorem idle_goes : Goes es ⟨t, []⟩ := by
  refine .on hfate ?_
  rw [List.append_nil]
  exact h

theorem touch_goes (now : α) (change : Link → Link) : Goes es (t.touch now change) := by
  unfold touch
  split
  · exact idle_goes hfate h
  · next c _ =>
    dsimp only
    split
    · next w hw =>
      exact reply_goes h hw (resume_reckons now w _) (resume_within now w _).calm now
    · exact idle_goes (t := { t with client := some { c with link := change c.link } }) hfate
        ⟨h.books, h.last⟩

theorem expire_goes (hround : t.round? now .tick = none) : Goes es (t.expire now) := by
  unfold expire
  split
  · next d hw =>
    split
    · have hquiet : Even t (es ++ [.abandon]) :=
        (h.even (by simp [hw])).quiet (fun _ => rfl) (.inl rfl) fun _ => rfl
      exact (failConnect_goes hquiet now).after
    · exact idle_goes hfate h
  · next w hw =>
    split
    · split
      · next c _ =>
        exact reply_goes h hw (expire_reckons now w c) (expire_within now w c).calm now
      · exact idle_goes hfate h
    · exact idle_goes hfate h
  · next d hw =>
    split
    · next hdue => simp [round?, hw, hdue] at hround
    · exact idle_goes hfate h
  · exact idle_goes hfate h

theorem afterClose_goes {next : AfterClose} (hw : t.wait = .closing next) (now : α)
    (f : Option FleetProbe.Fault) : Goes es (t.afterClose now next f) := by
  unfold afterClose
  split
  · exact pause_goes (t := { t with stage := .backoff }) (h.even (t := t) (by simp [hw])) now _
  · simp [fate?, hw] at hfate
  · exact shutdown_goes t (by simp)

omit h in
theorem cancel_goes : Goes es t.cancel := by
  unfold cancel
  split
  · exact .otherwise .cancelled rfl (by simp)
  · exact (shutdown_goes t (by simp)).after
  · next e hw => simp [fate?, hw] at hfate
  · exact shutdown_goes t (by simp)

/-- A step keeps the accounts, and a task that is to stop finds them even. -/
theorem step_goes (now : α) (e : Event) : Goes es (t.step now e) := by
  cases hu : t.round? now e with
  | some u =>
    obtain ⟨fs, hfs, hstep⟩ := step_eq_turn hu
    rw [hstep]
    exact (turn_goes (round_even h hu hfs) now).after
  | none =>
    cases e with
    | run =>
      rw [step_run_of_ne fun hw => by simp [round?, hw] at hu]
      exact idle_goes hfate h
    | opened =>
      rw [step_opened_of_ne fun d hw => by simp [round?, hw] at hu]
      exact idle_goes hfate h
    | refused f =>
      rw [step]
      split
      · next d hw =>
        split
        · exact failConnect_goes (h.even (by simp [hw])) now
        · exact shutdown_goes t (by simp)
      · exact idle_goes hfate h
    | arrived bs => exact touch_goes hfate h now (·.receive bs)
    | finished => exact touch_goes hfate h now Link.finish
    | lost f => exact touch_goes hfate h now (·.lose f)
    | closed f =>
      rw [step]
      split
      · next next hw => exact afterClose_goes hfate h hw now f
      · exact idle_goes hfate h
    | tick => exact expire_goes hfate h hu
    | stop =>
      rw [step_stop_of_ne fun d hw => by simp [round?, hw] at hu]
      exact idle_goes (t := { t with stopRequested := true }) hfate ⟨h.books, h.last⟩
    | cancel => exact cancel_goes hfate

end Steps

theorem fate?_of_round? {e : Event} {u : Task α} (hu : t.round? now e = some u) :
    t.fate? = none := by
  obtain ⟨-, hw, -⟩ | ⟨-, ⟨d, hw⟩, -⟩ | ⟨-, ⟨d, hw, -⟩, -⟩ | ⟨-, ⟨d, hw⟩, -⟩ := round?_eq_some hu
  all_goals rw [fate?, hw]

end Task

end FleetProbe.Probe
