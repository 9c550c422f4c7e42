import FleetProbe.Proofs.Probe.Loss
/-!
The connections of a task, by number. The task keeps one reference, which is set by the opening of a
connection and is empty as soon as closing begins; so what it does with connections is a matter of
whether it holds one.
-/

namespace FleetProbe.Probe

inductive Deed where
  /-- A connection is asked for, or turns out to have no time to be opened. -/
  | attempt
  | gain
  | close
  deriving DecidableEq, Repr

/-- What an effect is to the connections of a task. -/
def Deed.of? {α : Type} : Effect α → Option Deed
  | .connect | .connectFailed => some .attempt
  | .close => some .close
  | _ => none

def deeds {α : Type} (es : List (Effect α)) : List Deed := es.filterMap Deed.of?

/-- Connections, numbered in the order in which they were obtained. -/
structure Sockets where
  obtained : Nat := 0
  living : List Nat := []
  /-- Those closed, each as often as it was. -/
  closed : List Nat := []
  deriving DecidableEq, Repr

namespace Sockets

/-- What is closed is the connection obtained last, closed before or not. -/
def note (s : Sockets) : Deed → Sockets
  | .attempt => s
  | .gain => { s with obtained := s.obtained + 1, living := s.living ++ [s.obtained] }
  | .close =>
    { s with
      living := s.living.erase (s.obtained - 1), closed := s.closed ++ [s.obtained - 1] }

def after (ds : List Deed) : Sockets := ds.foldl note {}

/-- Every connection obtained is closed once or lives, and one lives exactly when one is held. -/
structure Accounted (s : Sockets) (held : Bool) : Prop where
  whole : s.closed ++ s.living = List.range s.obtained
  living : s.living.length = held.toNat

theorem Accounted.none {s : Sockets} (h : s.Accounted false) : s.living = [] :=
  List.eq_nil_of_length_eq_zero h.living

theorem Accounted.one {s : Sockets} (h : s.Accounted true) :
    ∃ n, s = ⟨n + 1, [n], List.range n⟩ := by
  obtain ⟨obtained, living, closed⟩ := s
  obtain ⟨x, hx⟩ := List.length_eq_one_iff.mp h.living
  have hwhole : closed ++ [x] = List.range obtained := hx ▸ h.whole
  have hlength : closed.length + 1 = obtained := by
    simpa using congrArg List.length hwhole
  rw [← hlength, List.range_succ] at hwhole
  obtain ⟨hclosed, hlast⟩ := List.append_inj' hwhole rfl
  obtain ⟨rfl, -⟩ := List.cons.inj hlast
  have hliving : living = [closed.length] := hx
  exact ⟨closed.length, by rw [← hlength, hliving, ← hclosed]⟩

end Sockets

/-- Deeds that lead from holding a connection or none to holding one or none: asked for and obtained
is one only where none is held, and closed only the one that is held. -/
def Leads : Bool → List Deed → Bool → Prop
  | held, [], last => held = last
  | held, .attempt :: ds, last => held = false ∧ Leads false ds last
  | held, .gain :: ds, last => held = false ∧ Leads true ds last
  | held, .close :: ds, last => held = true ∧ Leads false ds last

theorem leads_append {a c : Bool} {ds es : List Deed} :
    Leads a (ds ++ es) c ↔ ∃ b, Leads a ds b ∧ Leads b es c := by
  induction ds generalizing a with
  | nil => simp [Leads]
  | cons d ds ih =>
    cases d with
    | attempt | gain | close => simp only [List.cons_append, Leads, ih, and_assoc, exists_and_left]

namespace Sockets

variable {s : Sockets} {a b : Bool} {ds past : List Deed}

/-- One deed keeps the account. -/
theorem note_accounted {d : Deed} (h : s.Accounted a) (hd : Leads a [d] b) :
    (s.note d).Accounted b := by
  cases d with
  | attempt =>
    obtain ⟨rfl, rfl⟩ := hd
    exact h
  | gain =>
    obtain ⟨rfl, rfl⟩ := hd
    have hwhole := h.whole
    rw [h.none, List.append_nil] at hwhole
    refine ⟨?_, ?_⟩
    · simp only [note, h.none, List.nil_append, List.range_succ, hwhole]
    · simp [note, h.none]
  | close =>
    obtain ⟨rfl, rfl⟩ := hd
    obtain ⟨n, rfl⟩ := h.one
    exact ⟨by simp [note, List.range_succ], by simp [note]⟩

theorem foldl_accounted (h : s.Accounted a) (hds : Leads a ds b) :
    (ds.foldl note s).Accounted b := by
  induction ds generalizing s a with
  | nil =>
    cases hds
    exact h
  | cons d ds ih =>
    rw [← List.singleton_append, leads_append] at hds
    obtain ⟨m, hd, hrest⟩ := hds
    exact ih (note_accounted h hd) hrest

theorem after_accounted (h : Leads false ds b) : (after ds).Accounted b :=
  foldl_accounted ⟨rfl, rfl⟩ h

/-- What holds of the account at every moment of the deeds. -/
theorem prefix_accounted (h : Leads false ds b) (hp : past <+: ds) :
    ∃ held, (after past).Accounted held := by
  obtain ⟨rest, rfl⟩ := hp
  obtain ⟨held, hpast, -⟩ := leads_append.mp h
  exact ⟨held, after_accounted hpast⟩

/-- Whatever is done only where no connection is held is done while none lives. -/
theorem living_before {d : Deed} (hd : ∀ a c, Leads a [d] c → a = false)
    (h : Leads false ds b) (hp : past ++ [d] <+: ds) : (after past).living = [] := by
  obtain ⟨rest, rfl⟩ := hp
  obtain ⟨m, hm, -⟩ := leads_append.mp h
  obtain ⟨held, hpast, hlast⟩ := leads_append.mp hm
  cases hd held m hlast
  exact (after_accounted hpast).none

end Sockets

namespace Task

open Exchange

variable {α : Type}

/-- On the way to what is next a task deals with connections as one that holds its own. -/
def Handles (t : Task α) (n : Next α) : Prop :=
  Leads t.client.isSome (deeds n.effects) n.task.client.isSome

theorem Handles.still {t : Task α} {n : Next α} (he : deeds n.effects = [])
    (hc : n.task.client.isSome = t.client.isSome) : Handles t n := by
  rw [Handles, he, hc]
  rfl

theorem Handles.of_same {t u : Task α} {n : Next α} (h : Handles u n)
    (hc : u.client.isSome = t.client.isSome) : Handles t n := by
  rw [Handles, ← hc]
  exact h

theorem Handles.after {t : Task α} {n : Next α} {es : List (Effect α)} (h : Handles t n)
    (hes : deeds es = []) : Handles t (n.after es) := by
  rw [Handles, Next.after, deeds, List.filterMap_append, ← deeds, hes, List.nil_append]
  exact h

/-- A probe leaves the connection to its task. -/
theorem deeds_of_probing {es : List (Effect α)} (h : ∀ e ∈ es, e.Probing) : deeds es = [] := by
  refine List.filterMap_eq_nil_iff.mpr fun e he => ?_
  have hprobing := h e he
  cases e with
  | send | timedOut | report => rfl
  | connect | abandon | close | started | stopped | connectFailed | probeFailed => cases hprobing

theorem shutdown_handles (t : Task α) (e : Ending) : Handles t (t.shutdown e) := by
  unfold shutdown
  simp only
  split
  · exact .still rfl rfl
  · next c hc =>
    rw [Handles, hc]
    exact ⟨rfl, rfl⟩

theorem cancel_handles (t : Task α) : Handles t t.cancel := by
  unfold cancel
  split
  · exact .still rfl rfl
  · exact (shutdown_handles t _).after rfl
  · exact .still rfl rfl
  · exact shutdown_handles t _

variable [Quantity α] {t : Task α}

theorem pause_handles (t : Task α) (now : α) (delay : TimeLimit α) :
    Handles t (t.pause now delay) := by
  unfold pause
  split
  · exact shutdown_handles t _
  · split
    · exact shutdown_handles t _
    · exact .still rfl rfl

theorem failConnect_handles (hc : t.client = none) (now : α) : Handles t (t.failConnect now) := by
  have hpause : Handles t (t.countFailure.backOff now) := (pause_handles _ now _).of_same rfl
  rw [Handles, hc] at hpause ⊢
  exact ⟨rfl, hpause⟩

theorem connect_handles (hc : t.client = none) (now : α) : Handles t (t.connect now) := by
  unfold connect
  simp only
  split
  · exact (failConnect_handles (t := { t with stage := .connecting }) hc now).of_same rfl
  · split
    · exact (shutdown_handles _ _).of_same rfl
    · rw [Handles, hc]
      exact ⟨rfl, by simp [Leads]⟩

theorem settle_handles (hc : t.client.isSome) (now : α) {o : Outcome α}
    (ho : ∀ e ∈ o.effects, e.Probing) : Handles t (t.settle now o) := by
  unfold settle
  refine Handles.after ?_ (deeds_of_probing ho)
  split
  · exact .still rfl hc.symm
  · exact (pause_handles _ now _).of_same hc.symm
  · split
    · exact (shutdown_handles _ _).of_same hc.symm
    · rw [Handles, hc]
      exact ⟨rfl, rfl⟩

theorem turn_handles (h : Holds (fun _ => True) t) (now : α) : Handles t (t.turn now) := by
  unfold turn
  split
  · exact shutdown_handles t _
  · split
    · next hc => exact connect_handles hc now
    · next c hc =>
      obtain ⟨fault, hs, -⟩ := h c hc
      exact settle_handles (by simp [hc]) now (begin_sane (s := t.setup) now hs).calm

theorem touch_handles (h : Sound (fun _ => True) t) (now : α) (change : Link → Link)
    (hchange : ∀ l : Link, l.Allowed (fun _ => True) → (change l).Allowed fun _ => True) :
    Handles t (t.touch now change) := by
  unfold touch
  split
  · exact .still rfl rfl
  · next c hc =>
    obtain ⟨fault, hs, -⟩ := hchange c.link (h.holds c hc)
    simp only
    split
    · next w hw =>
      rw [Sound, hw] at h
      obtain ⟨-, -, -, -, hdeadline⟩ := h
      exact settle_handles (by simp [hc]) now (resume_sane (s := t.setup) now hdeadline hs).calm
    · exact .still rfl (by simp [hc])

theorem expire_handles (h : Sound (fun _ => True) t) (now : α) : Handles t (t.expire now) := by
  unfold expire
  split
  · next d hw =>
    rw [Sound, hw] at h
    split
    · exact (failConnect_handles h now).after rfl
    · exact .still rfl rfl
  · next w hw =>
    split
    · split
      · next c hc =>
        obtain ⟨fault, hs, -⟩ := h.holds c hc
        exact settle_handles (by simp [hc]) now (expire_sane (s := t.setup) now w hs).calm
      · exact .still rfl rfl
    · exact .still rfl rfl
  · split
    · exact turn_handles h.holds now
    · exact .still rfl rfl
  · exact .still rfl rfl

theorem afterClose_handles (t : Task α) (now : α) (next : AfterClose)
    (g : Option FleetProbe.Fault) : Handles t (t.afterClose now next g) := by
  unfold afterClose
  split
  · exact (pause_handles _ now _).of_same rfl
  · exact .still rfl rfl
  · exact shutdown_handles t _

/-- A connection is obtained when it opens and the task waits for it. -/
def gains (t : Task α) (e : Event) : List Deed :=
  match e, t.wait with
  | .opened, .opening _ => [.gain]
  | _, _ => []

/-- All that a task does with connections at a step. -/
def dealings (t : Task α) (now : α) (e : Event) : List Deed :=
  t.gains e ++ deeds (t.step now e).effects

/-- All that a task does with connections in a run. -/
def history (t : Task α) : List (α × Event) → List Deed
  | [] => []
  | (now, e) :: events => t.dealings now e ++ (t.step now e).task.history events

theorem step_leads (h : Sound (fun _ => True) t) (now : α) (e : Event) :
    Leads t.client.isSome (t.dealings now e) (t.step now e).task.client.isSome := by
  -- Only the opening of a connection is no matter of the effects alone.
  have hother (hg : t.gains e = []) (hn : Handles t (t.step now e)) :
      Leads t.client.isSome (t.dealings now e) (t.step now e).task.client.isSome := by
    rw [dealings, hg, List.nil_append]
    exact hn
  cases e with
  | run =>
    refine hother rfl ?_
    rw [step]
    split
    · exact (turn_handles h.holds now).after rfl
    · exact .still rfl rfl
  | opened =>
    cases hw : t.wait with
    | opening d =>
      have hc : t.client = none := by
        rw [Sound, hw] at h
        exact h
      have hturn : Handles { t with client := some {}, stage := .probing }
          ({ t with client := some {}, stage := .probing }.turn now) := by
        refine turn_handles (fun c hc => ?_) now
        cases hc
        exact ⟨none, ⟨rfl, rfl⟩, by simp⟩
      simp only [dealings, gains, step, hw, hc]
      exact ⟨rfl, hturn⟩
    | start | reply | pause | closing | ended =>
      refine hother (by simp [gains, hw]) ?_
      simp only [step, hw]
      exact .still rfl rfl
  | refused g =>
    refine hother rfl ?_
    rw [step]
    split
    · next d hw =>
      rw [Sound, hw] at h
      split
      · exact failConnect_handles h now
      · exact shutdown_handles t _
    · exact .still rfl rfl
  | arrived bs =>
    exact hother rfl (touch_handles h now (·.receive bs) fun _ hl => hl.receive bs)
  | finished => exact hother rfl (touch_handles h now Link.finish fun _ hl => hl.finish)
  | lost g => exact hother rfl (touch_handles h now (·.lose g) fun l _ => l.lose_allowed trivial)
  | closed g =>
    refine hother rfl ?_
    rw [step]
    split
    · exact afterClose_handles t now _ g
    · exact .still rfl rfl
  | tick => exact hother rfl (expire_handles h now)
  | stop =>
    refine hother rfl ?_
    rw [step]
    simp only
    split
    · exact (turn_handles (t := { t with stopRequested := true }) h.holds now).of_same rfl
    · exact .still rfl rfl
  | cancel => exact hother rfl (cancel_handles t)

theorem run_leads (h : Sound (fun _ => True) t) (events : List (α × Event)) :
    Leads t.client.isSome (t.history events) (t.run events).task.client.isSome := by
  induction events generalizing t with
  | nil => rfl
  | cons x events ih =>
    have hnext := step_sound h x.1 x.2 fun _ _ => trivial
    exact leads_append.mpr ⟨_, step_leads h x.1 x.2, ih hnext⟩

/-- The connections that a task has obtained, as it deals with them. -/
structure Tidy (t : Task α) (ds : List Deed) : Prop where
  /-- At every moment each connection obtained is closed, and once, or lives. -/
  whole : ∀ past, past <+: ds → (Sockets.after past).closed ++ (Sockets.after past).living =
    List.range (Sockets.after past).obtained
  single : ∀ past, past <+: ds → (Sockets.after past).living.length ≤ 1
  attempts : ∀ past, past ++ [.attempt] <+: ds → (Sockets.after past).living = []
  gains : ∀ past, past ++ [.gain] <+: ds → (Sockets.after past).living = []
  held : (Sockets.after ds).living.length = t.client.isSome.toNat
  opening : (∃ d, t.wait = .opening d) → (Sockets.after ds).living = []
  ended : (∃ e, t.wait = .ended e) → (Sockets.after ds).living = [] ∧
    (Sockets.after ds).closed = List.range (Sockets.after ds).obtained

/-- **Connections are neither leaked nor doubled.** Whatever happens to a task, and whenever it is
stopped or cancelled, one connection at most is open at any moment, another is asked for only when
none is, and when the task has ended every connection it obtained has been closed once. -/
theorem run_tidy (id : Nat) (node : Catalog.Node) (config : Config α)
    (events : List (α × Event)) :
    Tidy ((fresh id node config).run events).task ((fresh id node config).history events) := by
  have hfresh : Sound (fun _ => True) (fresh id node config) := fresh_sound _ id node config
  have hsound := run_sound hfresh events fun _ _ _ _ => trivial
  have hleads : Leads false _ _ := run_leads hfresh events
  have hall := Sockets.after_accounted hleads
  have hnone (hc : ((fresh id node config).run events).task.client = none) :
      (Sockets.after ((fresh id node config).history events)).Accounted false := by
    rwa [hc] at hall
  refine ⟨fun past hp => ?_, fun past hp => ?_, fun past hp => ?_, fun past hp => ?_, hall.living,
    ?_, ?_⟩
  · obtain ⟨held, hpast⟩ := Sockets.prefix_accounted hleads hp
    exact hpast.whole
  · obtain ⟨held, hpast⟩ := Sockets.prefix_accounted hleads hp
    rw [hpast.living]
    exact held.toNat_le
  · exact Sockets.living_before (d := .attempt) (fun _ _ hd => hd.1) hleads hp
  · exact Sockets.living_before (d := .gain) (fun _ _ hd => hd.1) hleads hp
  · rintro ⟨d, hw⟩
    rw [Sound, hw] at hsound
    exact (hnone hsound).none
  · rintro ⟨e, hw⟩
    rw [Sound, hw] at hsound
    have hover := hnone hsound
    refine ⟨hover.none, ?_⟩
    rw [← hover.whole, hover.none, List.append_nil]

example : (fresh 0 .lone .secondly).history (opening ++ [(0, .cancel), (0, .closed none)]) =
    [.attempt, .gain, .close] := by
  decide +kernel

end Task

end FleetProbe.Probe
