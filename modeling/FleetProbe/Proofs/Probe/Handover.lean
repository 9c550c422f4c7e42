import FleetProbe.Proofs.Fleet.Patrol
import FleetProbe.Proofs.Metrics.Growth
import FleetProbe.Proofs.Probe.Survival
/-!
Tasks that follow one another at a node. Any number of them may be there at a time, each with a
configuration of its own, and they go on, are stopped and end in any order. Each claims its node
with its first report and gives it up with its last, and between the two the series of the node are
safe from all that came before it.
-/

namespace FleetProbe.Probe

open Metrics

variable {α : Type}

/-- Tasks that share their metrics, and all they have reported. -/
structure Relay (α : Type) where
  crew : Crew α
  log : List (Report α) := []

/-- Whether a report claims or releases a node for some task. -/
def isTitle (id : Nat) : Report α → Bool
  | .claim _ owner | .release _ owner => owner == id
  | _ => false

/-- The claims and releases of a task in a log. -/
def titles (id : Nat) (log : List (Report α)) : List (Report α) := log.filter (isTitle id)

theorem titles_append (id : Nat) (log more : List (Report α)) :
    titles id (log ++ more) = titles id log ++ titles id more := List.filter_append log more

theorem titles_counts {target : Target} {counts : List (Report α)}
    (h : ∀ r ∈ counts, r.Counts target) (id : Nat) : titles id counts = [] := by
  refine List.filter_eq_nil_iff.mpr fun r hr => ?_
  have hr := h r hr
  cases r with
  | request | untimed | failure => exact Bool.false_ne_true
  | claim | release => cases hr

namespace Task

/-- What a task has claimed and released: nothing when it never ran, else its node, which it has
given up when it has ended, and not before. -/
def Tenure (t : Task α) (own : List (Report α)) : Prop :=
  (own = [] ∧ ¬ t.Running) ∨
    (own = .claim t.target t.id :: farewell t ∧ t.wait ≠ .start)

theorem farewell_titles (t : Task α) (id : Nat) :
    titles id (farewell t) = if t.id = id then farewell t else [] := by
  unfold farewell
  split
  · simp [titles, isTitle, List.filter_cons, beq_iff_eq]
  · simp [titles]

/-- A task of a place among others, with the log of all. -/
structure Serves [Quantity α] (log : List (Report α)) (place : Nat) (t : Task α) : Prop where
  id : t.id = place
  sound : Sound (fun _ => True) t
  tenure : t.Tenure (titles place log)

variable [Quantity α] {t : Task α} {n : Next α} {log : List (Report α)} {place : Nat}

theorem Tells.target_eq (h : Tells t n) : n.task.target = t.target := by
  rw [target, target, h.node]

theorem Tells.titles_reports (h : Tells t n) (id : Nat) :
    titles id (Effect.reports n.effects) = if t.id = id then farewell n.task else [] := by
  obtain ⟨counts, hr, hc⟩ := h.told
  rw [hr, titles_append, titles_counts fun r hm => (hc r hm).1, List.nil_append, farewell_titles,
    h.id]

/-- A task that has claimed its node and goes on has its tenure. -/
theorem Tells.tenure (h : Tells t n) :
    n.task.Tenure (.claim t.target t.id :: titles t.id (Effect.reports n.effects)) := by
  rw [h.titles_reports, if_pos rfl, ← h.target_eq, ← h.id]
  exact .inr ⟨rfl, h.begun⟩

/-- A step reports nothing, or goes on from what the task holds, or takes the node over. -/
theorem step_cases (hs : Sound (fun _ => True) t) (now : α) (e : Event) :
    (¬ t.Running ∧ (t.step now e).effects = [] ∧ ¬ (t.step now e).task.Running ∧
      (t.wait ≠ .start → (t.step now e).task.wait = t.wait)) ∨
    (t.Running ∧ Tells t (t.step now e)) ∨
    (t.wait = .start ∧ Tells t (t.turn now) ∧
      t.step now e = (t.turn now).after [.started, .report (.claim t.target t.id)]) := by
  by_cases hrun : t.Running
  · exact .inr (.inl ⟨hrun, step_tells hrun now e⟩)
  · by_cases hfirst : t.wait = .start ∧ e = .run
    · obtain ⟨hw, rfl⟩ := hfirst
      exact .inr (.inr ⟨hw, turn_tells t now, step_run hw now⟩)
    · have hc : t.client = none := by
        obtain hw | ⟨e, hw⟩ := not_running hrun
        · rwa [Sound, hw] at hs
        · rwa [Sound, hw] at hs
      left
      obtain hstill | ⟨-, hask⟩ | ⟨-, hw, hend⟩ :=
        step_idle hrun hc now fun hw he => hfirst ⟨hw, he⟩
      · rw [hstill]
        exact ⟨hrun, rfl, hrun, fun _ => rfl⟩
      · rw [hask]
        exact ⟨hrun, rfl, hrun, fun _ => rfl⟩
      · rw [hend]
        exact ⟨hrun, rfl, fun hr => hr.2 _ rfl, fun hne => absurd hw hne⟩

theorem step_serves (h : t.Serves log place) (now : α) (e : Event) :
    (t.step now e).task.Serves (log ++ Effect.reports (t.step now e).effects) place := by
  obtain ⟨hid, hnode, -⟩ := step_same t now e
  refine ⟨hid.trans h.id, step_sound h.sound now e fun _ _ => trivial, ?_⟩
  have htenure := h.tenure
  rw [titles_append]
  rw [← h.id] at htenure ⊢
  obtain ⟨hrests, hsilent, hstill, hwait⟩ | ⟨hrun, htells⟩ | ⟨hw, htells, hstep⟩ :=
    step_cases h.sound now e
  · have hno : titles t.id (Effect.reports (t.step now e).effects) = [] := by rw [hsilent]; rfl
    rw [hno, List.append_nil]
    obtain ⟨hnone, -⟩ | ⟨hown, hbegun⟩ := htenure
    · exact .inl ⟨hnone, hstill⟩
    · have hw := hwait hbegun
      refine .inr ⟨?_, hw ▸ hbegun⟩
      rw [hown, farewell, farewell, hw, target, target, hnode, hid]
  · obtain ⟨-, hnot⟩ | ⟨hown, -⟩ := htenure
    · exact absurd hrun hnot
    · rw [farewell_of_running hrun] at hown
      rw [hown]
      exact htells.tenure
  · obtain ⟨hnone, -⟩ | ⟨-, hbegun⟩ := htenure
    · have hclaim : titles t.id (Effect.reports ((t.turn now).after
          [.started, .report (.claim t.target t.id)]).effects) =
          .claim t.target t.id :: titles t.id (Effect.reports (t.turn now).effects) :=
        List.filter_cons_of_pos (beq_self_eq_true t.id)
      rw [hnone, hstep, hclaim]
      exact htells.tenure
    · exact absurd hw hbegun

/-- A task claims and releases in no other name. -/
theorem step_titles_of_ne (hs : Sound (fun _ => True) t) (now : α) (e : Event) {id : Nat}
    (hne : t.id ≠ id) : titles id (Effect.reports (t.step now e).effects) = [] := by
  obtain ⟨-, hsilent, -⟩ | ⟨-, htells⟩ | ⟨-, htells, hstep⟩ := step_cases hs now e
  · rw [hsilent]
    rfl
  · rw [htells.titles_reports, if_neg hne]
  · have hother : titles id (Effect.reports ((t.turn now).after
        [.started, .report (.claim t.target t.id)]).effects) =
        titles id (Effect.reports (t.turn now).effects) :=
      List.filter_cons_of_neg fun heq => hne (eq_of_beq heq)
    rw [hstep, hother, htells.titles_reports, if_neg hne]

theorem step_timed (hs : Sound (fun _ => True) t) (hx : t.config.timeout.IsNumber) (now : α)
    (e : Event) : ∀ r ∈ Effect.reports (t.step now e).effects, r.Timed := by
  obtain ⟨-, hsilent, -⟩ | ⟨-, htells⟩ | ⟨-, htells, hstep⟩ := step_cases hs now e
  · rw [hsilent]
    simp
  · exact htells.timed hx
  · rw [hstep]
    intro r hr
    cases hr with
    | head => exact trivial
    | tail _ hr => exact htells.timed hx r hr

end Task

namespace Relay

inductive Act (α : Type) where
  | spawn (node : Catalog.Node) (config : Config α) (stopRequested : Bool)
  /-- Sets the stop request of a task; the task sees it when it looks the next time. -/
  | ask (task : Nat)
  | event (task : Nat) (e : Event)

def fresh (bounds : List α) : Relay α := { crew := { metrics := { bounds } } }

section Steps

variable [Quantity α]

def step (r : Relay α) (now : α) : Act α → Relay α
  | .spawn node config stopRequested =>
    { r with crew := r.crew.spawn node config stopRequested }
  | .ask task =>
    { r with crew := { r.crew with
      tasks := r.crew.tasks.modify task fun t => { t with stopRequested := true } } }
  | .event task e =>
    let (crew, effects) := r.crew.deliver now task e
    ⟨crew, r.log ++ Effect.reports effects⟩

/-- A run of what happens, each thing at its own time. -/
def run (r : Relay α) (acts : List (α × Act α)) : Relay α :=
  acts.foldl (fun r (now, a) => r.step now a) r

/-- The metrics when a log has come in. -/
def metricsAfter (bounds : List α) (log : List (Report α)) : Metrics α :=
  log.foldl Metrics.apply { bounds }

/-- What every run keeps. -/
structure Kept (bounds : List α) (r : Relay α) : Prop where
  metrics : r.crew.metrics = metricsAfter bounds r.log
  tasks : ∀ (i : Nat) (t : Task α), r.crew.tasks[i]? = some t → t.Serves r.log i
  /-- Nothing is claimed or released in the name of a task that is not there yet. -/
  ahead : ∀ i, r.crew.tasks.length ≤ i → titles i r.log = []
  timed : (∀ t ∈ r.crew.tasks, t.config.timeout.IsNumber) → ∀ x ∈ r.log, x.Timed

variable {bounds : List α} {r : Relay α}

theorem fresh_kept (bounds : List α) : Kept bounds (fresh bounds) := by
  refine ⟨rfl, fun i t ht => ?_, fun _ _ => rfl, fun _ x hx => ?_⟩
  · cases ht
  · cases hx

theorem spawn_kept (h : r.Kept bounds) (node : Catalog.Node) (config : Config α)
    (stopRequested : Bool) :
    Kept bounds { r with crew := r.crew.spawn node config stopRequested } := by
  refine ⟨h.metrics, fun i t ht => ?_, fun i hi => ?_, fun hall => ?_⟩
  · obtain hi | hi := Nat.lt_or_ge i r.crew.tasks.length
    · rw [Crew.spawn, List.getElem?_append_left hi] at ht
      exact h.tasks i t ht
    · rw [Crew.spawn, List.getElem?_append_right hi] at ht
      obtain ⟨h0, ht⟩ := List.getElem?_eq_some_iff.mp ht
      rw [List.length_singleton] at h0
      rw [List.getElem_singleton] at ht
      have hplace : r.crew.tasks.length = i := by omega
      subst ht
      exact ⟨hplace, Task.sound_of_none rfl (by simp), .inl ⟨h.ahead i hi, fun hr => hr.1 rfl⟩⟩
  · rw [Crew.spawn, List.length_append, List.length_singleton] at hi
    exact h.ahead i (by omega)
  · exact h.timed fun t ht => hall t (List.mem_append_left _ ht)

theorem ask_kept (h : r.Kept bounds) (now : α) (task : Nat) :
    Kept bounds (r.step now (.ask task)) := by
  have hget (i : Nat) : (r.step now (.ask task)).crew.tasks[i]? =
      (r.crew.tasks[i]?).map fun t =>
        if task = i then { t with stopRequested := true } else t := by
    simp only [step, List.getElem?_modify]
    split
    · rfl
    · simp
  refine ⟨h.metrics, fun i t ht => ?_, fun i hi => ?_, fun hall => ?_⟩
  · rw [hget] at ht
    obtain ⟨u, hu, rfl⟩ := Option.map_eq_some_iff.mp ht
    have hserves := h.tasks i u hu
    split
    · exact ⟨hserves.id, hserves.sound, hserves.tenure⟩
    · exact hserves
  · refine h.ahead i ?_
    rwa [step, List.length_modify] at hi
  · refine h.timed fun t ht => ?_
    obtain ⟨i, hi⟩ := List.mem_iff_getElem?.mp ht
    have hnext := hget i
    rw [hi] at hnext
    have hx := hall _ (List.mem_of_getElem? hnext)
    split at hx
    · exact hx
    · exact hx

theorem event_kept (h : r.Kept bounds) (now : α) (task : Nat) (e : Event) :
    Kept bounds (r.step now (.event task e)) := by
  cases ht : r.crew.tasks[task]? with
  | none =>
    have hsame : r.step now (.event task e) = r := by
      simp only [step, Crew.deliver, ht, Effect.reports_nil, List.append_nil]
    rw [hsame]
    exact h
  | some t =>
    have hserves := h.tasks task t ht
    have hplace := (List.getElem?_eq_some_iff.mp ht).1
    have hnext : r.step now (.event task e) =
        ⟨⟨r.crew.tasks.set task (t.step now e).task,
          (t.step now e).effects.foldl Crew.hear r.crew.metrics⟩,
          r.log ++ Effect.reports (t.step now e).effects⟩ := by
      simp only [step, Crew.deliver, ht]
    rw [hnext]
    refine ⟨?_, fun i u hu => ?_, fun i hi => ?_, fun hall => ?_⟩
    · rw [Patrol.foldl_hear, h.metrics, metricsAfter, metricsAfter, List.foldl_append]
    · by_cases hi : task = i
      · subst hi
        rw [List.getElem?_set_self hplace] at hu
        cases hu
        exact Task.step_serves hserves now e
      · rw [List.getElem?_set_ne hi] at hu
        have hu := h.tasks i u hu
        refine ⟨hu.id, hu.sound, ?_⟩
        rw [titles_append, Task.step_titles_of_ne hserves.sound now e (by rwa [hserves.id]),
          List.append_nil]
        exact hu.tenure
    · rw [List.length_set] at hi
      have hne : t.id ≠ i := by
        rw [hserves.id]
        omega
      rw [titles_append, Task.step_titles_of_ne hserves.sound now e hne, List.append_nil]
      exact h.ahead i hi
    · have hconfig := (Task.step_same t now e).2.2
      have hnumber : t.config.timeout.IsNumber := by
        rw [← hconfig]
        exact hall _ (List.mem_of_getElem? (List.getElem?_set_self hplace))
      have hbefore : ∀ u ∈ r.crew.tasks, u.config.timeout.IsNumber := by
        intro u hu
        obtain ⟨i, hi⟩ := List.mem_iff_getElem?.mp hu
        by_cases hne : task = i
        · subst hne
          cases hi.symm.trans ht
          exact hnumber
        · exact hall u (List.mem_of_getElem? ((List.getElem?_set_ne hne).trans hi))
      intro x hx
      obtain hx | hx := List.mem_append.mp hx
      · exact h.timed hbefore x hx
      · exact Task.step_timed hserves.sound hnumber now e x hx

theorem run_kept (h : r.Kept bounds) (acts : List (α × Act α)) : (r.run acts).Kept bounds := by
  induction acts generalizing r with
  | nil => exact h
  | cons a acts ih =>
    obtain ⟨now, a⟩ := a
    refine ih ?_
    cases a with
    | spawn node config stopRequested => exact spawn_kept h node config stopRequested
    | ask task => exact ask_kept h now task
    | event task e => exact event_kept h now task e

/-- A claim makes its task the holder, whatever came before. -/
theorem owner?_claimed (bounds : List α) (before : List (Report α)) (target : Target) (id : Nat) :
    (metricsAfter bounds (before ++ [.claim target id])).owner? target = some id := by
  rw [metricsAfter, List.foldl_append, List.foldl_cons, List.foldl_nil, owner?_apply, hold,
    if_pos rfl]

/-- **A handover keeps the series of the successor.** However the tasks of any nodes overlap, a
task claims its node once, and releases it once when it has ended. From its claim on, and as long
as it does not let go and nobody else claims the node, no series of the node goes away and no count
of it becomes less, whoever ends meanwhile. When it lets go then, no series of the node is left;
for this, time limits are numbers, as they are declared. -/
theorem handover (bounds : List α) (acts : List (α × Act α)) (id : Nat) (t : Task α)
    (ht : ((fresh bounds).run acts).crew.tasks[id]? = some t) :
    ((fresh bounds).run acts).crew.metrics =
      metricsAfter bounds ((fresh bounds).run acts).log ∧
    t.Tenure (titles id ((fresh bounds).run acts).log) ∧
    ∀ before during after,
      ((fresh bounds).run acts).log = before ++ .claim t.target id :: (during ++ after) →
      Undisturbed t.target id during →
      (∀ early late, early <+: late → late <+: during →
        Grows t.target (metricsAfter bounds (before ++ .claim t.target id :: early))
          (metricsAfter bounds (before ++ .claim t.target id :: late))) ∧
      (∀ rest, after = .release t.target id :: rest →
        (∀ u ∈ ((fresh bounds).run acts).crew.tasks, u.config.timeout.IsNumber) →
        Clear t.target (metricsAfter bounds
          (before ++ .claim t.target id :: (during ++ [.release t.target id])))) := by
  have hkept := run_kept (fresh_kept bounds) acts
  refine ⟨hkept.metrics, (hkept.tasks id t ht).tenure, fun before during after hlog hheld => ?_⟩
  have hafter (part : List (Report α)) :
      metricsAfter bounds (before ++ .claim t.target id :: part) =
        part.foldl Metrics.apply (metricsAfter bounds (before ++ [.claim t.target id])) := by
    rw [List.append_cons, metricsAfter, metricsAfter, List.foldl_append]
  have hclaimed := owner?_claimed bounds before t.target id
  have hpart {part : List (Report α)} (hp : part <+: during) :=
    foldl_grows hclaimed (hheld.of_subset hp.subset)
  constructor
  · intro early late hearly hlate
    obtain ⟨more, rfl⟩ := hearly
    have hmore : Undisturbed t.target id more :=
      hheld.of_subset fun r hr => hlate.subset (List.mem_append_right early hr)
    have howner := (hpart ((List.prefix_append early more).trans hlate)).2
    rw [hafter early, hafter (early ++ more), List.foldl_append]
    exact (foldl_grows howner hmore).1
  · rintro rest rfl hnumbers
    have htimed := hkept.timed hnumbers
    have hreflects : Reflects t.target ([] ++ (before ++ .claim t.target id :: during))
        (metricsAfter bounds (before ++ .claim t.target id :: during)) := by
      refine foldl_reflects (start_reflects t.target bounds) _ fun x hx => htimed x ?_
      rw [hlog]
      simp only [List.mem_append, List.mem_cons] at hx ⊢
      tauto
    have howner := (hpart (List.prefix_refl during)).2
    rw [← hafter] at howner
    have hclear := apply_release_clear hreflects.recorded howner
    rw [hafter, List.foldl_append, List.foldl_cons, List.foldl_nil, ← hafter]
    exact hclear

end Steps

/-- The node of the tasks below. -/
def stand : Target := ⟨"c", "h:1"⟩

/-- The second task of a node has taken it over and fails once; then the first one ends, and then
the second. -/
def passing : List (Rat × Act Rat) :=
  [(0, .spawn .lone .secondly false), (0, .event 0 .run), (0, .spawn .lone .secondly false),
    (0, .event 1 .run), (0, .event 1 (.refused Task.reset)), (0, .event 0 .cancel), (0, .ask 1),
    (1, .event 1 .stop)]

theorem passing_log : ((fresh []).run passing).log =
    [.claim stand 0, .claim stand 1, .failure stand, .release stand 0, .release stand 1] := by
  decide +kernel

theorem passing_handover :
    Undisturbed stand 1 [(.failure stand : Report Rat), .release stand 0] ∧
    Grows stand (metricsAfter [] [.claim stand 0, .claim stand 1, .failure stand])
      (metricsAfter ([] : List Rat)
        [.claim stand 0, .claim stand 1, .failure stand, .release stand 0]) ∧
    Clear stand ((fresh []).run passing).crew.metrics := by
  have hheld : Undisturbed stand 1 [(.failure stand : Report Rat), .release stand 0] :=
    ⟨by decide +kernel, by simp⟩
  obtain ⟨hmetrics, -, hpasses⟩ := handover [] passing 1 _ rfl
  obtain ⟨hgrows, hclear⟩ := hpasses [.claim stand 0] [.failure stand, .release stand 0]
    [.release stand 1] passing_log hheld
  refine ⟨hheld, hgrows [.failure stand] _ ⟨_, rfl⟩ (List.prefix_refl _), ?_⟩
  have hconfig : ∀ u ∈ ((fresh []).run passing).crew.tasks, u.config = .secondly := by
    decide +kernel
  have hnumber : Config.secondly.timeout.IsNumber := ⟨1, by decide +kernel⟩
  rw [hmetrics, passing_log]
  exact hclear [] rfl fun u hu => hconfig u hu ▸ hnumber

end Relay

end FleetProbe.Probe
