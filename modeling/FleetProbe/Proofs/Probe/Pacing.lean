import Mathlib.Tactic.Linarith
import FleetProbe.Proofs.Number.Exact
import FleetProbe.Proofs.Probe.Stages
import FleetProbe.Proofs.Probe.Transcript
/-!
The pace of a task, in exact arithmetic. A connection is asked for at the start, or the backoff
after the failure before it; a probe begins when the connection has opened, or the interval after
the probe before it on that connection.
-/

namespace FleetProbe

/-- What is asked of a pause: it is over no sooner than its length after it began. -/
def TimeLimit.Keeps (l : TimeLimit Rat) (start now : Rat) : Prop :=
  ∃ x, l.seconds = .ok x ∧ start + x ≤ now

theorem TimeLimit.keeps_of_deadline {l : TimeLimit Rat} {start begun now : Rat} {d : Option Rat}
    (hstart : start ≤ begun) (h : l.deadline begun = .ok d) (hd : d.any (· ≤ now) = true) :
    l.Keeps start now := by
  cases d with
  | none => cases hd
  | some d =>
    have hdue : d ≤ now := of_decide_eq_true hd
    by_cases hover : l.isOver = true
    · -- A limit that was over from the start is no more than nothing.
      unfold deadline at h
      rw [if_pos hover] at h
      cases h
      cases l with
      | endless => cases hover
      | unusable => cases hover
      | within a =>
        have hle := (Amount.le_iff a (.whole 0)).mp hover
        rw [Amount.value_whole] at hle
        refine ⟨a.value, by simp [seconds, Amount.real?_eq], ?_⟩
        have hnone : a.value ≤ 0 := by exact_mod_cast hle
        linarith
    · obtain hnow | ⟨x, hx, rfl⟩ := deadline_eq_some h
      · exact absurd hnow hover
      · exact ⟨x, hx, by linarith⟩

namespace Probe

/-- What shows of the rounds of a task. -/
inductive Beat where
  /-- A connection is asked for, or turns out to have no time to be opened. -/
  | attempt
  | refusal
  | gain
  | probe
  | success
  | failure
  deriving DecidableEq, Repr

namespace Beat

def ofStart : Start → Beat
  | .connect => attempt
  | .probe => probe

/-- What an effect says of a round that ends. -/
def of? {α : Type} : Effect α → Option Beat
  | .connectFailed => some refusal
  | .probeFailed => some failure
  | _ => none

theorem of?_of_probing {α : Type} {es : List (Effect α)} (h : ∀ x ∈ es, x.Probing) :
    es.filterMap of? = [] := by
  refine List.filterMap_eq_nil_iff.mpr fun x hx => ?_
  have hprobing := h x hx
  cases x with
  | connectFailed | probeFailed => cases hprobing
  | connect | abandon | send | close | report | started | stopped | timedOut => rfl

theorem of?_of_parting {α : Type} {es : List (Effect α)} (h : ∀ x ∈ es, x.Parting) :
    es.filterMap of? = [] := by
  refine List.filterMap_eq_nil_iff.mpr fun x hx => ?_
  have hparting := h x hx
  cases x with
  | connectFailed | probeFailed => cases hparting
  | connect | abandon | send | close | report | started | stopped | timedOut => rfl

end Beat

/-- What may come after what came last, and when. -/
inductive Comes (config : Config Rat) : Option (Rat × Beat) → Rat × Beat → Prop where
  | first (now : Rat) : Comes config none (now, .attempt)
  | refused (asked now : Rat) : Comes config (some (asked, .attempt)) (now, .refusal)
  | gained (asked now : Rat) : Comes config (some (asked, .attempt)) (now, .gain)
  | begun (gained now : Rat) : Comes config (some (gained, .gain)) (now, .probe)
  | succeeded (begun now : Rat) : Comes config (some (begun, .probe)) (now, .success)
  | failed (begun now : Rat) : Comes config (some (begun, .probe)) (now, .failure)
  | retried {ended now : Rat} {b : Beat} (hb : b = .refusal ∨ b = .failure)
      (hpause : config.backoff.Keeps ended now) : Comes config (some (ended, b)) (now, .attempt)
  | again {ended now : Rat} (hpause : config.interval.Keeps ended now) :
      Comes config (some (ended, .success)) (now, .probe)

/-- Beats of which each may follow the one before. -/
def Paced (config : Config Rat) :
    Option (Rat × Beat) → List (Rat × Beat) → Option (Rat × Beat) → Prop
  | last, [], final => last = final
  | last, b :: bs, final => Comes config last b ∧ Paced config (some b) bs final

theorem Paced.append {config : Config Rat} {a b c : Option (Rat × Beat)}
    {bs cs : List (Rat × Beat)} (h : Paced config a bs b) (h' : Paced config b cs c) :
    Paced config a (bs ++ cs) c := by
  induction bs generalizing a with
  | nil =>
    obtain rfl : a = b := h
    exact h'
  | cons x bs ih => exact ⟨h.1, ih h.2⟩

/-- What comes in front of a beat is one that it may follow. -/
theorem Paced.comes {config : Config Rat} {last final : Option (Rat × Beat)}
    {before after : List (Rat × Beat)} {b : Rat × Beat}
    (h : Paced config last (before ++ b :: after) final) :
    Comes config (before.getLast?.or last) b := by
  induction before generalizing last with
  | nil => exact h.1
  | cons x before ih =>
    have hrest := ih h.2
    rw [List.getLast?_cons]
    cases hb : before.getLast? with
    | none =>
      rw [hb] at hrest
      exact hrest
    | some y =>
      rw [hb] at hrest
      exact hrest

/-- A task keeps its pace. -/
structure KeepsPace (config : Config Rat) (bs : List (Rat × Beat)) : Prop where
  /-- A connection is asked for at the start, or the backoff after a failure. -/
  attempts : ∀ before now after, bs = before ++ (now, .attempt) :: after → before = [] ∨
    ∃ ended b, before.getLast? = some (ended, b) ∧ (b = .refusal ∨ b = .failure) ∧
      config.backoff.Keeps ended now
  /-- A probe begins when the connection has opened, or the interval after the one before. -/
  probes : ∀ before now after, bs = before ++ (now, .probe) :: after →
    ∃ ended b, before.getLast? = some (ended, b) ∧
      (b = .gain ∨ (b = .success ∧ config.interval.Keeps ended now))
  /-- An attempt alone is refused or gains a connection. -/
  opened : ∀ before now b after, bs = before ++ (now, b) :: after → b = .refusal ∨ b = .gain →
    ∃ begun, before.getLast? = some (begun, .attempt)
  /-- A probe alone succeeds or fails. -/
  ended : ∀ before now b after, bs = before ++ (now, b) :: after → b = .success ∨ b = .failure →
    ∃ begun, before.getLast? = some (begun, .probe)

theorem Paced.keepsPace {config : Config Rat} {bs : List (Rat × Beat)}
    {final : Option (Rat × Beat)} (h : Paced config none bs final) : KeepsPace config bs := by
  have hcomes {before after : List (Rat × Beat)} {b : Rat × Beat}
      (hsplit : bs = before ++ b :: after) : Comes config before.getLast? b := by
    rw [hsplit] at h
    have hb := h.comes
    rwa [Option.or_none] at hb
  refine ⟨fun before now after hsplit => ?_, fun before now after hsplit => ?_,
    fun before now b after hsplit hb => ?_, fun before now b after hsplit hb => ?_⟩
  all_goals
    have hlast := hcomes hsplit
    generalize hbefore : before.getLast? = last at hlast
  · cases hlast with
    | first => exact .inl (List.getLast?_eq_none_iff.mp hbefore)
    | retried hb hpause => exact .inr ⟨_, _, rfl, hb, hpause⟩
  · cases hlast with
    | begun => exact ⟨_, _, rfl, .inl rfl⟩
    | again hpause => exact ⟨_, _, rfl, .inr ⟨rfl, hpause⟩⟩
  · obtain rfl | rfl := hb
    · cases hlast
      exact ⟨_, rfl⟩
    · cases hlast
      exact ⟨_, rfl⟩
  · obtain rfl | rfl := hb
    · cases hlast
      exact ⟨_, rfl⟩
    · cases hlast
      exact ⟨_, rfl⟩

namespace Task

open Exchange

section Beats

variable {α : Type}

/-- The round that ends on the way to what is next, for a task that has completed some probes. -/
def Next.ends (probes : Nat) (n : Next α) : List Beat :=
  (if probes < n.task.probes then [.success] else []) ++ n.effects.filterMap Beat.of?

theorem Next.ends_after {probes : Nat} {n : Next α} {es : List (Effect α)}
    (h : es.filterMap Beat.of? = []) : (n.after es).ends probes = n.ends probes := by
  rw [Next.ends, Next.ends, Next.after, List.filterMap_append, h, List.nil_append]

variable [Quantity α]

/-- What shows of the rounds of a task at a step: a connection opens, a round begins, it ends. -/
def beats (t : Task α) (now : α) (e : Event) : List Beat :=
  (t.gains e).map (fun _ => .gain) ++ ((t.starts? now e).toList.map Beat.ofStart ++
    (t.step now e).ends t.probes)

/-- All that shows of the rounds of a task in a run, and when. -/
def chronicle (t : Task α) : List (α × Event) → List (α × Beat)
  | [] => []
  | (now, e) :: events =>
    (t.beats now e).map (Prod.mk now) ++ (t.step now e).task.chronicle events

end Beats

variable {t : Task Rat} {config : Config Rat} {last : Option (Rat × Beat)} {clock now : Rat}

/-- What was last seen of a task that waits. A pause is over when what comes next may come. -/
def Awaits (config : Config Rat) (last : Option (Rat × Beat)) (clock : Rat) (t : Task Rat) : Prop :=
  match t.wait with
  | .start => last = none
  | .opening _ => ∃ asked, last = some (asked, .attempt)
  | .reply _ => ∃ begun, last = some (begun, .probe)
  | .pause d => ∀ now, d.any (· ≤ now) = true →
    Comes config last (now, if t.client.isSome then .probe else .attempt)
  | .closing .backoff => ∃ failed, failed ≤ clock ∧ last = some (failed, .failure)
  | .closing (.ending _) | .ended _ => True

/-- What is seen of a task on the way to what is next goes on from what was last seen of it. -/
def Advances (config : Config Rat) (last : Option (Rat × Beat)) (now : Rat) (probes : Nat)
    (n : Next Rat) : Prop :=
  ∃ final, Paced config last ((n.ends probes).map (Prod.mk now)) final ∧
    Awaits config final now n.task

theorem Awaits.mono (h : Awaits config last clock t) (hclock : clock ≤ now) :
    Awaits config last now t := by
  unfold Awaits at h ⊢
  split at h
  any_goals exact h
  next =>
    obtain ⟨failed, hle, hlast⟩ := h
    exact ⟨failed, hle.trans hclock, hlast⟩

theorem Advances.after {probes : Nat} {n : Next Rat} {es : List (Effect Rat)}
    (h : Advances config last now probes n) (hes : es.filterMap Beat.of? = []) :
    Advances config last now probes (n.after es) := by
  rw [Advances, Next.ends_after hes]
  exact h

theorem Advances.still {n : Next Rat} {probes : Nat} (h : Awaits config last now n.task)
    (hprobes : n.task.probes = probes) (hes : n.effects.filterMap Beat.of? = []) :
    Advances config last now probes n := by
  have hnone : n.ends probes = [] := by
    rw [Next.ends, if_neg (by omega), hes, List.append_nil]
  rw [Advances, hnone]
  exact ⟨last, rfl, h⟩

theorem shutdown_advances (t : Task Rat) (e : Ending) :
    Advances config last now t.probes (t.shutdown e) := by
  refine .still ?_ (t.shutdown_counts e).1 (Beat.of?_of_parting (shutdown_parting t e))
  obtain ⟨-, ⟨how, hw⟩ | ⟨how, hw⟩⟩ := t.shutdown_over e
  · rw [Awaits, hw]
    trivial
  · rw [Awaits, hw]
    trivial

theorem pause_advances (t : Task Rat) (limit : TimeLimit Rat) {start : Rat} (hstart : start ≤ now)
    (h : ∀ later, limit.Keeps start later →
      Comes config last (later, if t.client.isSome then .probe else .attempt)) :
    Advances config last now t.probes (t.pause now limit) := by
  unfold pause
  split
  · exact shutdown_advances t _
  · next d hd =>
    split
    · exact shutdown_advances t _
    · exact .still (fun later hlater => h later (TimeLimit.keeps_of_deadline hstart hd hlater)) rfl
        rfl

theorem Advances.mark {b : Beat} {n : Next Rat} (es : List (Effect Rat)) {probes : Nat}
    (h : Advances config (some (now, b)) now probes n) (hcomes : Comes config last (now, b))
    (hprobes : n.task.probes = probes) (hes : es.filterMap Beat.of? = [b]) :
    Advances config last now probes (n.after es) := by
  obtain ⟨final, hpaced, hawaits⟩ := h
  have hkept : ¬ probes < n.task.probes := by omega
  have hends : (n.after es).ends probes = b :: n.ends probes := by
    simp [Next.ends, Next.after, hes, hkept]
  refine ⟨final, ?_, hawaits⟩
  rw [hends]
  exact ⟨hcomes, hpaced⟩

theorem pause_probes (t : Task Rat) (now : Rat) (limit : TimeLimit Rat) :
    (t.pause now limit).task.probes = t.probes := by
  obtain ⟨how, hshut⟩ | ⟨-, d, hpause⟩ := t.pause_cases now limit
  · rw [hshut, (t.shutdown_counts how).1]
  · rw [hpause]

theorem failConnect_advances (hconfig : t.config = config) {asked : Rat} (hc : t.client = none) :
    Advances config (some (asked, .attempt)) now t.probes (t.failConnect now) := by
  refine Advances.mark _ ?_ (.refused asked now) (pause_probes _ now _) rfl
  refine pause_advances { t.countFailure with stage := .backoff } _ (le_refl now) fun later h => ?_
  simp only [countFailure, hc]
  exact .retried (.inl rfl) (hconfig ▸ h)

theorem connect_advances (hconfig : t.config = config) {asked : Rat} (hc : t.client = none) :
    Advances config (some (asked, .attempt)) now t.probes (t.connect now) := by
  unfold connect
  dsimp only
  split
  · exact failConnect_advances (t := { t with stage := .connecting }) hconfig hc
  · split
    · exact shutdown_advances _ _
    · refine .still ⟨asked, rfl⟩ rfl rfl

theorem settle_advances (hconfig : t.config = config) {begun : Rat} {o : Outcome Rat}
    (ho : ∀ x ∈ o.effects, x.Probing) :
    Advances config (some (begun, .probe)) now t.probes (t.settle now o) := by
  unfold settle
  dsimp only
  refine Advances.after ?_ (Beat.of?_of_probing ho)
  split
  · exact .still ⟨begun, rfl⟩ rfl rfl
  · -- The probe is over before the pause begins.
    generalize hu : ({ t with client := some o.client, probes := t.probes + 1 } : Task Rat) = u
    have hclient : u.client.isSome := by rw [← hu]; rfl
    have hprobes : u.probes = t.probes + 1 := by rw [← hu]
    have hkeeps (later : Rat) (hlater : t.config.interval.Keeps now later) :
        Comes config (some (now, .success))
          (later, if u.client.isSome then .probe else .attempt) := by
      rw [if_pos hclient]
      exact .again (hconfig ▸ hlater)
    obtain ⟨final, hpaced, hawaits⟩ := pause_advances u t.config.interval (le_refl now) hkeeps
    have hcounted := pause_probes u now t.config.interval
    have hends : (u.pause now t.config.interval).ends t.probes =
        .success :: (u.pause now t.config.interval).ends u.probes := by
      simp [Next.ends, hcounted, hprobes]
    refine ⟨final, ?_, hawaits⟩
    rw [hends]
    exact ⟨.succeeded begun now, hpaced⟩
  · split
    · exact shutdown_advances { t with client := some o.client } _
    · refine Advances.mark [.probeFailed, _, _] (n := ⟨_, []⟩) (b := .failure) ?_ ?_ rfl rfl
      · exact .still ⟨now, le_refl now, rfl⟩ rfl rfl
      · exact .failed begun now

/-- What a turn begins and ends. -/
theorem turn_advances (hconfig : t.config = config)
    (h : t.stopRequested = false →
      Comes config last (now, if t.client.isSome then .probe else .attempt)) :
    ∃ final, Paced config last (((if t.stopRequested then [] else
      [if t.client.isSome then Beat.probe else .attempt]) ++ (t.turn now).ends t.probes).map
        (Prod.mk now)) final ∧ Awaits config final now (t.turn now).task := by
  unfold turn
  cases hstop : t.stopRequested with
  | true => exact shutdown_advances t _
  | false =>
    have hcomes := h hstop
    cases hc : t.client with
    | none =>
      rw [hc] at hcomes
      have hconnect : Advances config (some (now, .attempt)) now t.probes (t.connect now) :=
        connect_advances hconfig hc
      obtain ⟨final, hpaced, hawaits⟩ := hconnect
      exact ⟨final, ⟨hcomes, hpaced⟩, hawaits⟩
    | some c =>
      rw [hc] at hcomes
      have hsettle : Advances config (some (now, .probe)) now t.probes
          (t.settle now (begin t.setup now c)) :=
        settle_advances hconfig (begin_within now c).calm
      obtain ⟨final, hpaced, hawaits⟩ := hsettle
      exact ⟨final, ⟨hcomes, hpaced⟩, hawaits⟩

theorem course_advances (hs : Sound (fun _ => True) t) (hconfig : t.config = config)
    (h : Awaits config last clock t) (hclock : clock ≤ now) {e : Event} {n : Next Rat}
    (hn : Course t now e n) : Advances config last now t.probes n := by
  cases hn with
  | idle => exact .still (h.mono hclock) rfl rfl
  | asked => exact .still (h.mono hclock) rfl rfl
  | @noted e c change hc hw =>
    refine .still ?_ rfl rfl
    have hmono := h.mono hclock
    unfold Awaits at hmono ⊢
    rw [hc] at hmono
    exact hmono
  | resumes e change hw =>
    rw [Awaits, hw] at h
    obtain ⟨begun, rfl⟩ := h
    exact settle_advances hconfig (resume_within now _ _).calm
  | expires hw =>
    rw [Awaits, hw] at h
    obtain ⟨begun, rfl⟩ := h
    exact settle_advances hconfig (expire_within now _ _).calm
  | refused e es hw hes =>
    rw [Awaits, hw] at h
    rw [Sound, hw] at hs
    obtain ⟨asked, rfl⟩ := h
    exact (failConnect_advances hconfig hs).after (Beat.of?_of_parting hes)
  | @closed next f hw =>
    rw [Sound, hw] at hs
    rw [Awaits, hw] at h
    unfold afterClose
    split
    · obtain ⟨failed, hfailed, rfl⟩ := h
      refine pause_advances { t with stage := .backoff } _ (hfailed.trans hclock) fun later hk => ?_
      rw [show t.client = none from hs]
      exact .retried (.inr rfl) (hconfig ▸ hk)
    · exact .still trivial rfl rfl
    · exact shutdown_advances t _
  | shut e how es hes => exact (shutdown_advances t how).after (Beat.of?_of_parting hes)
  | unbegun hw => exact .still trivial rfl rfl

theorem step_advances (hs : Sound (fun _ => True) t) (hconfig : t.config = config)
    (h : Awaits config last clock t) (hclock : clock ≤ now) (e : Event) :
    ∃ final, Paced config last ((t.beats now e).map (Prod.mk now)) final ∧
      Awaits config final now (t.step now e).task := by
  cases hu : t.round? now e with
  | none =>
    have hbeats : t.beats now e = (t.step now e).ends t.probes := by
      rw [beats, gains_of_round? hu, starts?, hu]
      rfl
    rw [hbeats]
    exact course_advances hs hconfig h hclock (step_course hu)
  | some u =>
    obtain ⟨es, hes, hstep⟩ := step_eq_turn hu
    have hquiet : es.filterMap Beat.of? = [] := by
      obtain rfl | rfl := hes
      · rfl
      · rfl
    have hstarts : ((t.starts? now e).toList.map Beat.ofStart) =
        if u.stopRequested then [] else [if u.client.isSome then Beat.probe else .attempt] := by
      rw [starts?, hu, Option.bind_some]
      cases u.stopRequested <;> cases u.client <;> rfl
    rw [beats, hstarts, hstep, Next.ends_after hquiet]
    -- A round begins where a beat of its kind is due.
    have hturn (last' : Option (Rat × Beat)) (hconfig' : u.config = config)
        (hprobes : u.probes = t.probes) (hdue : u.stopRequested = false →
          Comes config last' (now, if u.client.isSome then .probe else .attempt)) :=
      hprobes ▸ turn_advances hconfig' hdue
    obtain ⟨rfl, hw, rfl⟩ | ⟨rfl, ⟨d, hw⟩, rfl⟩ | ⟨rfl, ⟨d, hw, hdue⟩, rfl⟩ | ⟨rfl, ⟨d, hw⟩, rfl⟩ :=
      round?_eq_some hu
    · rw [Awaits, hw] at h
      rw [Sound, hw] at hs
      subst h
      exact hturn none hconfig rfl fun _ => by rw [show u.client = none from hs]; exact .first now
    · rw [Awaits, hw] at h
      obtain ⟨asked, rfl⟩ := h
      have hgains : t.gains .opened = [.gain] := by simp only [gains, hw]
      obtain ⟨final, hpaced, hawaits⟩ :=
        hturn (some (now, .gain)) hconfig rfl fun _ => .begun now now
      rw [hgains]
      exact ⟨final, ⟨.gained asked now, hpaced⟩, hawaits⟩
    · rw [Awaits, hw] at h
      exact hturn last hconfig rfl fun _ => h now hdue
    · exact hturn last hconfig rfl fun hgo => (by cases hgo)

theorem run_paced (hs : Sound (fun _ => True) t) (hconfig : t.config = config)
    (h : Awaits config last clock t) (events : List (Rat × Event))
    (hclock : (clock :: events.map Prod.fst).IsChain (· ≤ ·)) :
    ∃ final, Paced config last (t.chronicle events) final := by
  induction events generalizing t last clock with
  | nil => exact ⟨last, rfl⟩
  | cons y events ih =>
    rw [List.map_cons, List.isChain_cons_cons] at hclock
    obtain ⟨final, hpaced, hawaits⟩ := step_advances hs hconfig h hclock.1 y.2
    have hsame := (step_same t y.1 y.2).2.2.trans hconfig
    obtain ⟨rest, hrest⟩ :=
      ih (step_sound hs y.1 y.2 fun _ _ => trivial) hsame hawaits hclock.2
    exact ⟨rest, hpaced.append hrest⟩

section Asking

variable {α : Type} [Quantity α] {t : Task α} {now : α}

theorem pause_unopened (t : Task α) (now : α) (delay : TimeLimit α) :
    .connect ∉ (t.pause now delay).effects := fun hm => pause_parting t now delay _ hm

theorem settle_unopened {o : Outcome α} (ho : ∀ x ∈ o.effects, x.Probing) :
    .connect ∉ (t.settle now o).effects := by
  intro hm
  obtain hm | hm := List.mem_append.mp hm
  · exact ho _ hm
  · revert hm
    split
    · simp
    · exact pause_unopened _ now _
    · split
      · exact fun hm => shutdown_parting _ _ _ hm
      · simp

theorem course_unopened {e : Event} {n : Next α} (hn : Course t now e n) :
    .connect ∉ n.effects := by
  cases hn with
  | idle | asked | noted | unbegun => simp
  | resumes => exact settle_unopened (resume_within now _ _).calm
  | expires => exact settle_unopened (expire_within now _ _).calm
  | refused e es hw hes =>
    have hpause := pause_unopened { t.countFailure with stage := .backoff } now t.config.backoff
    simp only [Next.after, failConnect, backOff, countFailure, List.mem_append, not_or]
    exact ⟨fun hm => hes _ hm, by simp, hpause⟩
  | closed f hw => exact fun hm => afterClose_parting t now _ f _ hm
  | shut e how es hes =>
    intro hm
    exact (List.mem_append.mp hm).elim (hes _) (shutdown_parting t how _)

/-- A connection is asked for only in an attempt. -/
theorem starts?_of_connect {e : Event} (h : .connect ∈ (t.step now e).effects) :
    t.starts? now e = some .connect := by
  cases hu : t.round? now e with
  | none => exact absurd h (course_unopened (step_course hu))
  | some u =>
    obtain ⟨es, hes, hopen, hstep⟩ := step_of_round? hu
    rw [hstep] at h
    have hturn := (List.mem_append.mp h).resolve_left hopen
    rw [starts?, hu, Option.bind_some]
    unfold turn at hturn
    cases hstop : u.stopRequested with
    | true =>
      rw [hstop] at hturn
      exact absurd hturn fun hm => shutdown_parting u _ _ hm
    | false =>
      rw [hstop] at hturn
      cases hc : u.client with
      | none => rfl
      | some c =>
        simp only [hc] at hturn
        exact absurd hturn (settle_unopened (begin_within now c).calm)

end Asking

/-- **The states of a task and its pace.** Whatever happens to a task, its stage moves from
connecting to probing or to the backoff, from probing to the backoff, from there to connecting, and
from anywhere to the end, where it stays. A connection is asked for at the start or the backoff
after a failure, and a probe begins when its connection has opened or the interval after the one
before. -/
theorem run_keepsPace (id : Nat) (node : Catalog.Node) (config : Config Rat)
    (events : List (Rat × Event)) (hclock : (events.map Prod.fst).Pairwise (· ≤ ·)) :
    (∀ past now e rest, events = past ++ (now, e) :: rest →
      ((fresh id node config).run past).task.stage.Moves
        (((fresh id node config).run past).task.step now e).task.stage ∧
      (((fresh id node config).run past).task.stage = .stopped →
        (((fresh id node config).run past).task.step now e).task.stage = .stopped) ∧
      (.connect ∈ (((fresh id node config).run past).task.step now e).effects →
        ((fresh id node config).run past).task.starts? now e = some .connect)) ∧
    KeepsPace config ((fresh id node config).chronicle events) := by
  have hfresh := fresh_sound (fun _ => True) id node config
  refine ⟨fun past now e rest _ => ?_, ?_⟩
  · have hsound := run_sound hfresh past fun _ _ _ _ => trivial
    have hstaged : Staged (fresh id node config) := rfl
    have hmoves := (step_moves hsound (run_staged hfresh hstaged past) now e).1
    exact ⟨hmoves, fun hstopped => (hstopped ▸ hmoves).of_stopped, starts?_of_connect⟩
  · have hpaced : ∃ final, Paced config none ((fresh id node config).chronicle events) final := by
      cases events with
      | nil => exact ⟨none, rfl⟩
      | cons y events =>
        have hchain : List.IsChain (· ≤ ·) (y.1 :: (y :: events).map Prod.fst) :=
          .cons_cons (le_refl y.1) hclock.isChain
        exact run_paced hfresh rfl rfl _ hchain
    obtain ⟨final, hfinal⟩ := hpaced
    exact hfinal.keepsPace

/-- The first connection is refused; the second lasts for one probe of two. -/
def bumpy : List (Rat × Event) :=
  [(0, .run), (1 / 2, .refused ⟨.system, "refused", Text.empty⟩), (1, .tick), (3 / 2, .tick),
    (2, .opened), (3, .tick), (4, .tick), (5, .tick), (5, .lost ⟨.system, "reset", Text.empty⟩),
    (11 / 2, .closed none), (6, .tick), (13 / 2, .tick)]

theorem bumpy_keepsPace :
    (bumpy.map Prod.fst).Pairwise (· ≤ ·) ∧
    (fresh 0 .lone .secondly).chronicle bumpy =
      [(0, .attempt), (1 / 2, .refusal), (3 / 2, .attempt), (2, .gain), (2, .probe),
        (4, .success), (5, .probe), (5, .failure), (13 / 2, .attempt)] ∧
    KeepsPace .secondly ((fresh 0 .lone .secondly).chronicle bumpy) := by
  have hclock : (bumpy.map Prod.fst).Pairwise (· ≤ ·) := by decide +kernel
  exact ⟨hclock, by decide +kernel, (run_keepsPace 0 .lone .secondly bumpy hclock).2⟩

end Task

end Probe

end FleetProbe
