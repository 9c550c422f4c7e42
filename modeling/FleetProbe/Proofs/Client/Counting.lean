import FleetProbe.Client.Exchange
import FleetProbe.Proofs.Client.Tuning
/-!
What a probe counts on a connection to a peer that answers commands in whole frames: its commands in
the order of their numbers, each with the status of its own answer or as timed out.
-/

namespace FleetProbe

open Wire Client

namespace Exchange

variable {α : Type}

/-- What a probe counts: the number of the command, and the status counted for it. `number` tells
the number of the command with some name. -/
def counts (number : Text → Nat) (effects : List (Effect α)) : List (Nat × Text) :=
  effects.filterMap fun
    | .report (.request _ command status _) => some (number command, status)
    | .report (.untimed _ command status) => some (number command, status)
    | _ => none

theorem counts_append (number : Text → Nat) (es fs : List (Effect α)) :
    counts number (es ++ fs) = counts number es ++ counts number fs :=
  List.filterMap_append

/-- A command is counted with the status of its own answer, or as timed out. -/
def Own (answers : List Answer) (n : Nat) (status : Text) : Prop :=
  status = timeoutStatus ∨ ∃ f, IsAnswer answers n f ∧ status = (f.status : Text)

/-- A number no count has reached. -/
def Outcome.upTo (number : Text → Nat) (o : Outcome α) : Nat :=
  match o.progress with
  | .waiting w => number w.phase.command
  | _ => o.client.next

/-- A probe is in tune with the peer, and counts its commands in their order, from `first` on, each
with its own status; `given` numbers were given out before. -/
structure Fair (answers : List Answer) (coming : Bytes) (number : Text → Nat) (first given : Nat)
    (o : Outcome α) : Prop where
  tune : o.client.InTune answers coming
  own : ∀ n status, (n, status) ∈ counts number o.effects → n < 0x100000000 →
    Own answers n status
  ordered : ((counts number o.effects).map Prod.fst).Pairwise (· < ·)
  above : ∀ n ∈ (counts number o.effects).map Prod.fst, first ≤ n
  below : ∀ n ∈ (counts number o.effects).map Prod.fst, n < o.upTo number
  waits : ∀ w, o.progress = .waiting w →
    w.serial = number w.phase.command % 0x100000000 ∧ first ≤ number w.phase.command ∧
      number w.phase.command < o.client.next
  early : first ≤ given
  grows : given ≤ o.client.next

namespace Fair

variable {answers : List Answer} {coming : Bytes} {number : Text → Nat} {n given : Nat}
  {o : Outcome α}

theorem ended {c : Client} {p : Progress α} (h : c.InTune answers coming) (hn : n ≤ given)
    (hgiven : given ≤ c.next) (hp : ∀ w, p ≠ .waiting w) :
    Fair answers coming number n given ⟨p, c, []⟩ :=
  ⟨h, by simp [counts], by simp [counts], by simp [counts], by simp [counts],
    fun w hw => absurd hw (hp w), hn, hgiven⟩

theorem weaken {m most : Nat} (h : Fair answers coming number n given o) (hm : m ≤ n)
    (hmost : m ≤ most) (hgiven : most ≤ given) : Fair answers coming number m most o := by
  refine ⟨h.tune, h.own, h.ordered, fun k hk => ?_, h.below, fun w hw => ?_, hmost, ?_⟩
  · exact Nat.le_trans hm (h.above k hk)
  · obtain ⟨hserial, hfirst, hlt⟩ := h.waits w hw
    exact ⟨hserial, Nat.le_trans hm hfirst, hlt⟩
  · exact Nat.le_trans hgiven h.grows

theorem quiet {es : List (Effect α)} (h : Fair answers coming number n given o)
    (hes : counts number es = []) : Fair answers coming number n given (o.after es) := by
  have hcounts : counts number (o.after es).effects = counts number o.effects := by
    rw [Outcome.after, counts_append, hes, List.nil_append]
  refine ⟨h.tune, ?_, ?_, ?_, ?_, h.waits, h.early, h.grows⟩
  · rw [hcounts]
    exact h.own
  · rw [hcounts]
    exact h.ordered
  · rw [hcounts]
    exact h.above
  · rw [hcounts]
    exact h.below

theorem le_upTo (h : Fair answers coming number n given o) : n ≤ o.upTo number := by
  unfold Outcome.upTo
  split
  · next w hw => exact (h.waits w hw).2.1
  · exact Nat.le_trans h.early h.grows

/-- A command is counted, and those after it have greater numbers. -/
theorem count {es : List (Effect α)} {status : Text}
    (h : Fair answers coming number (n + 1) given o) (hes : counts number es = [(n, status)])
    (hown : n < 0x100000000 → Own answers n status) :
    Fair answers coming number n given (o.after es) := by
  have hcounts : counts number (o.after es).effects = (n, status) :: counts number o.effects := by
    rw [Outcome.after, counts_append, hes, List.singleton_append]
  have hbefore : Fair answers coming number n given o :=
    h.weaken (Nat.le_succ n) (Nat.le_of_succ_le h.early) (Nat.le_refl _)
  refine ⟨h.tune, fun m st hm => ?_, ?_, fun m hm => ?_, fun m hm => ?_, hbefore.waits,
    hbefore.early, h.grows⟩
  · rw [hcounts] at hm
    rcases List.mem_cons.mp hm with heq | hm
    · cases heq
      exact hown
    · exact h.own m st hm
  · rw [hcounts, List.map_cons]
    exact List.pairwise_cons.mpr ⟨h.above, h.ordered⟩
  · rw [hcounts, List.map_cons] at hm
    rcases List.mem_cons.mp hm with rfl | hm
    · exact Nat.le_refl _
    · exact hbefore.above m hm
  · rw [hcounts, List.map_cons] at hm
    rcases List.mem_cons.mp hm with rfl | hm
    · exact h.le_upTo
    · exact h.below m hm

end Fair

/-- The numbers of a probe from its current command on: that of the command, and the next one. -/
def numbering (p : Phase) (n next : Nat) (command : Text) : Nat :=
  if command = p.command then n else next

theorem numbering_self (p : Phase) (n next : Nat) : numbering p n next p.command = n := if_pos rfl

theorem numbering_get (n next : Nat) : numbering .set n next Phase.get.command = next :=
  if_neg (by decide)

section Probe

variable [Quantity α] {answers : List Answer} {coming : Bytes} {number : Text → Nat}
  {s : Setup α} {commands : Nat}

theorem timeOut_fair {p : Phase} {c : Client} {n : Nat} (h : c.InTune answers coming)
    (hnumber : number p.command = n) {next : Client → Outcome α}
    (hnext : Fair answers coming number (n + 1) c.next (next c)) :
    Fair answers coming number n c.next (timeOut s p c next) := by
  unfold timeOut
  simp only
  split
  · exact hnext.count (by simp [counts, hnumber]) fun _ => .inl rfl
  · next f _ =>
    have hended : Fair answers coming number (n + 1) c.next
        (⟨.failed (.time f), c, []⟩ : Outcome α) :=
      .ended h hnext.early (Nat.le_refl _) (by simp)
    have hcount : counts number [(.timedOut p.command s.timeout : Effect α),
        .report (.untimed s.target p.command timeoutStatus)] = [(n, timeoutStatus)] := by
      simp [counts, hnumber]
    exact hended.count hcount fun _ => .inl rfl

variable (hpeer : Peer answers commands) (hfew : commands < 0x100000000) (now : α)

include hpeer hfew

/-- A command that waits is counted for its own answer. -/
theorem answer_fair {w : Waiting α} {c : Client} {n : Nat} (h : c.InTune answers coming)
    (hnumber : number w.phase.command = n) (hserial : w.serial = n % 0x100000000)
    (hn : n < c.next) {next : Client → Outcome α}
    (hnext : ∀ d : Client, d.InTune answers coming → d.next = c.next →
      Fair answers coming number (n + 1) c.next (next d)) :
    Fair answers coming number n c.next (answer s now w c next) := by
  obtain ⟨htune, hanswer⟩ := h.await hpeer hfew n
  have hkept := (awaitReply_pops (n % 0x100000000 : Nat) c).2
  unfold answer
  rw [hserial]
  split
  · next d hd =>
    rw [hd] at htune hkept
    refine ⟨htune, by simp [counts], by simp [counts], by simp [counts], by simp [counts],
      fun v hv => ?_, Nat.le_of_lt hn, Nat.le_of_eq hkept.symm⟩
    cases hv
    rw [hnumber]
    exact ⟨hserial, Nat.le_refl n, hkept ▸ hn⟩
  · next f d hd =>
    rw [hd] at htune hkept
    exact (hnext d htune hkept).count (by simp [counts, hnumber]) fun hsmall =>
      .inr ⟨f, hanswer f d hd hsmall, rfl⟩
  · next f d hd =>
    rw [hd] at htune hkept
    split
    · rw [← hkept] at hnext ⊢
      exact timeOut_fair htune hnumber (hnext d htune rfl)
    · exact .ended htune (Nat.le_of_lt hn) (Nat.le_of_eq hkept.symm) (by simp)
  · next f d _ hd =>
    rw [hd] at htune hkept
    exact .ended htune (Nat.le_of_lt hn) (Nat.le_of_eq hkept.symm) (by simp)

theorem command_fair {p : Phase} {c : Client} (h : c.InTune answers coming)
    (hnumber : number p.command = c.next) {next : Client → Outcome α}
    (hnext : ∀ d : Client, d.InTune answers coming → d.next = c.next + 1 →
      Fair answers coming number (c.next + 1) (c.next + 1) (next d)) :
    Fair answers coming number c.next c.next (command s now p c next) := by
  have htaken : c.takeSerial.2.InTune answers coming := h.of_rest rfl
  have hsend (bs : Bytes) : counts number [(.send bs : Effect α)] = [] := rfl
  have hended {f : Fault} : Fair answers coming number c.next c.next
      (⟨.failed f, c.takeSerial.2, []⟩ : Outcome α) :=
    .ended htaken (Nat.le_refl _) (Nat.le_succ _) (by simp)
  have hlate {o : Outcome α} (ho : Fair answers coming number c.next (c.next + 1) o) :
      Fair answers coming number c.next c.next o :=
    ho.weaken (Nat.le_refl _) (Nat.le_refl _) (Nat.le_succ _)
  have htimeOut : Fair answers coming number c.next c.next (timeOut s p c.takeSerial.2 next) :=
    hlate (timeOut_fair htaken hnumber (hnext _ htaken rfl))
  unfold command
  simp only
  split
  · exact hended
  · split
    · exact htimeOut
    · split
      · exact hended
      · exact hended
      · split
        · split
          · exact htimeOut.quiet (hsend _)
          · exact hended.quiet (hsend _)
        · exact (hlate (answer_fair hpeer hfew now htaken hnumber rfl (Nat.lt_succ_self _)
            hnext)).quiet (hsend _)

theorem following_fair (p : Phase) {d : Client} {n : Nat} (h : d.InTune answers coming)
    (hn : n < d.next) :
    Fair answers coming (numbering p n d.next) (n + 1) d.next (following s now p d) := by
  cases p with
  | set =>
    have hget : Fair answers coming (numbering .set n d.next) d.next d.next (beginGet s now d) := by
      refine command_fair hpeer hfew now h (numbering_get n d.next) fun e he hkept => ?_
      exact .ended he (Nat.le_refl _) (Nat.le_of_eq hkept.symm) (by simp)
    exact hget.weaken hn hn (Nat.le_refl _)
  | get => exact .ended h hn (Nat.le_refl _) (by simp)

theorem begin_fair {c : Client} (h : c.InTune answers coming) :
    Fair answers coming (numbering .set c.next (c.next + 1)) c.next c.next (begin s now c) := by
  refine command_fair hpeer hfew now h (numbering_self ..) fun d hd hkept => ?_
  rw [← hkept]
  have hlt : c.next < d.next := hkept ▸ Nat.lt_succ_self c.next
  exact hkept ▸ following_fair hpeer hfew now .set hd hlt

theorem resume_fair {w : Waiting α} {c : Client} {n : Nat} (h : c.InTune answers coming)
    (hserial : w.serial = n % 0x100000000) (hn : n < c.next) :
    Fair answers coming (numbering w.phase n c.next) n c.next (resume s now w c) := by
  refine answer_fair hpeer hfew now h (numbering_self ..) hserial hn fun d hd hkept => ?_
  rw [← hkept] at hn ⊢
  exact following_fair hpeer hfew now w.phase hd hn

theorem expire_fair {w : Waiting α} {c : Client} {n : Nat} (h : c.InTune answers coming)
    (hn : n < c.next) :
    Fair answers coming (numbering w.phase n c.next) n c.next (expire s now w c) :=
  timeOut_fair h (numbering_self ..) (following_fair hpeer hfew now w.phase h hn)

end Probe

end Exchange

end FleetProbe
