import Mathlib.Data.NNRat.Defs
import Mathlib.Order.Bounds.Basic
import FleetProbe.Proofs.Bucket.Visit
/-!
A bucket that fills all the time and serves a call at the first instant at which its level allows.
The bucket that is brought up to date only when somebody asks comes to the same for a single
caller: both are asked for the same sleeps, let every call go at the same instant, and stand at the
same level between calls.

Only sleeping takes time here, and a sleep lasts exactly as long as asked unless its caller gives
up before.
-/

namespace FleetProbe

namespace Bucket

/-- A call as its caller means to make it. -/
structure Plan where
  tokens : Amount Rat
  /-- Time between the end of the call before and this one. -/
  rest : NNRat
  /-- How long the caller is ready to sleep; nothing when to the end. -/
  patience : Option NNRat

/-- How a call went. -/
structure Stay where
  /-- The sleep that was asked for, if any. -/
  slept : Option Rat
  outcome : Outcome
  /-- When the call returned, or was given up. -/
  ends : Rat
  deriving DecidableEq, Repr

/-- A whole call begun at an instant. -/
def serve (b : Bucket Rat) (now : Rat) (p : Plan) : Bucket Rat × Stay :=
  match b.request (.real now) (.real now) p.tokens with
  | (b, .error _) => (b, ⟨none, .refused, now⟩)
  | (b, .ok .granted) => (b, ⟨none, .granted, now⟩)
  | (b, .ok (.sleep x)) =>
    match p.patience.filter fun d : NNRat => (d : Rat) ≤ x with
    | some d => (b, ⟨some x, .givenUp, now + d⟩)
    | none => (b.wake (.real (now + x)), ⟨some x, .granted, now + x⟩)

theorem serve_eq (b : Bucket Rat) (now : Rat) (p : Plan) :
    b.serve now p =
      if b.capacity.value < p.tokens.value then (b, ⟨none, .refused, now⟩)
      else if p.tokens.value ≤ 0 then (b, ⟨none, .granted, now⟩)
      else if p.tokens.value ≤ b.levelAt now then
        ({ b with available := b.levelAt now - p.tokens.value, last := .real now },
          ⟨none, .granted, now⟩)
      else
        let x := (p.tokens.value - b.levelAt now) / b.quantum.value
        match p.patience.filter fun d : NNRat => (d : Rat) ≤ x with
        | some d =>
          ({ b with available := b.levelAt now, last := .real now }, ⟨some x, .givenUp, now + d⟩)
        | none =>
          ({ b with available := 0, last := .real (now + x) }, ⟨some x, .granted, now + x⟩) := by
  rw [serve, request_eq, Amount.value_real]
  split_ifs with hover hnone hthere
  · rfl
  · rfl
  · rfl
  · rfl

/-- What calls in a row come to, and what they leave. -/
structure Served where
  stays : List Stay
  bucket : Bucket Rat
  /-- When the last of them ended. -/
  clock : Rat

def serveAll (b : Bucket Rat) (now : Rat) : List Plan → Served
  | [] => ⟨[], b, now⟩
  | p :: ps =>
    let (next, stay) := b.serve (now + p.rest) p
    let later := next.serveAll stay.ends ps
    { later with stays := stay :: later.stays }

end Bucket

open Bucket

/-- A bucket whose level rises all the time. -/
structure Reservoir where
  capacity : Rat
  rate : Rat
  level : Rat

namespace Reservoir

def full (capacity rate : Rat) : Reservoir := ⟨capacity, rate, capacity⟩

/-- Time passes. -/
def pass (c : Reservoir) (d : Rat) : Reservoir :=
  { c with level := min c.capacity (c.level + d * c.rate) }

def draw (c : Reservoir) (n : Rat) : Reservoir := { c with level := c.level - n }

/-- The level reaches `n` for the first time after a time `d`. -/
def Reaches (c : Reservoir) (n d : Rat) : Prop := IsLeast {x | 0 ≤ x ∧ n ≤ (c.pass x).level} d

/-- How a call goes that begins at an instant: what is beyond the capacity is refused, and all else
is served as soon as the level has reached it, unless the caller gives up before. -/
inductive Serves (c : Reservoir) (now : Rat) (p : Plan) : Stay → Reservoir → Prop where
  | refused (h : c.capacity < p.tokens.value) : Serves c now p ⟨none, .refused, now⟩ c
  | nothing (hfits : p.tokens.value ≤ c.capacity) (h : p.tokens.value ≤ 0) :
    Serves c now p ⟨none, .granted, now⟩ c
  | atOnce (hfits : p.tokens.value ≤ c.capacity) (hpos : 0 < p.tokens.value)
      (h : c.Reaches p.tokens.value 0) :
    Serves c now p ⟨none, .granted, now⟩ (c.draw p.tokens.value)
  | later {d : Rat} (hfits : p.tokens.value ≤ c.capacity) (hpos : 0 < p.tokens.value)
      (h : c.Reaches p.tokens.value d) (hd : 0 < d) (hstays : ∀ x ∈ p.patience, d < x) :
    Serves c now p ⟨some d, .granted, now + d⟩ ((c.pass d).draw p.tokens.value)
  | givenUp {d : Rat} {x : NNRat} (hfits : p.tokens.value ≤ c.capacity)
      (hpos : 0 < p.tokens.value) (h : c.Reaches p.tokens.value d) (hd : 0 < d)
      (hx : x ∈ p.patience) (hleaves : x ≤ d) :
    Serves c now p ⟨some d, .givenUp, now + x⟩ (c.pass x)

/-- Calls in a row, each begun some time after the one before. -/
inductive ServesAll : Reservoir → Rat → List Plan → List Stay → Reservoir → Rat → Prop where
  | nil (c : Reservoir) (now : Rat) : ServesAll c now [] [] c now
  | cons {c next last : Reservoir} {now clock : Rat} {p : Plan} {ps : List Plan} {s : Stay}
      {ss : List Stay} (h : (c.pass p.rest).Serves (now + p.rest) p s next)
      (hrest : next.ServesAll s.ends ps ss last clock) :
    ServesAll c now (p :: ps) (s :: ss) last clock

variable {c : Reservoir} {n : Rat}

theorem reaches_zero (hlevel : c.level ≤ c.capacity) (h : n ≤ c.level) : c.Reaches n 0 := by
  refine ⟨⟨le_refl _, ?_⟩, fun x hx => hx.1⟩
  rw [pass, zero_mul, add_zero]
  exact le_min (h.trans hlevel) h

/-- What is missing comes in at the rate of the reservoir. -/
theorem reaches_missing (hrate : 0 < c.rate) (hfits : n ≤ c.capacity) (h : c.level ≤ n) :
    c.Reaches n ((n - c.level) / c.rate) := by
  have hfilled : c.level + (n - c.level) / c.rate * c.rate = n := by
    rw [div_mul_cancel₀ _ hrate.ne']
    linarith
  refine ⟨⟨div_nonneg (sub_nonneg.mpr h) hrate.le, ?_⟩, ?_⟩
  · rw [pass, hfilled]
    exact le_min hfits (le_refl n)
  · rintro x ⟨-, hx⟩
    have hgain : n ≤ c.level + x * c.rate := hx.trans (min_le_right _ _)
    rw [div_le_iff₀ hrate]
    linarith

/-- What came in while it was missing is just what is taken. -/
theorem draw_missing (hrate : 0 < c.rate) (hfits : n ≤ c.capacity) :
    (c.pass ((n - c.level) / c.rate)).draw n = { c with level := 0 } := by
  have hfilled : c.level + (n - c.level) / c.rate * c.rate = n := by
    rw [div_mul_cancel₀ _ hrate.ne']
    linarith
  rw [pass, hfilled, draw, min_eq_right hfits, sub_self]

/-- A reservoir leaves no choice how a call goes. -/
theorem Serves.unique {now : Rat} {p : Plan} {s t : Stay} {d e : Reservoir}
    (h : c.Serves now p s d) (h' : c.Serves now p t e) : s = t ∧ d = e := by
  cases h with
  | refused hover =>
    cases h' with
    | refused => exact ⟨rfl, rfl⟩
    | nothing hfits | atOnce hfits | later hfits | givenUp hfits =>
      exact absurd hover (not_lt.mpr hfits)
  | nothing hfits hnone =>
    cases h' with
    | refused hover => exact absurd hover (not_lt.mpr hfits)
    | nothing => exact ⟨rfl, rfl⟩
    | atOnce _ hpos | later _ hpos | givenUp _ hpos => exact absurd hnone (not_le.mpr hpos)
  | atOnce hfits hpos hzero =>
    cases h' with
    | refused hover => exact absurd hover (not_lt.mpr hfits)
    | nothing _ hnone => exact absurd hnone (not_le.mpr hpos)
    | atOnce => exact ⟨rfl, rfl⟩
    | later _ _ hd hlate | givenUp _ _ hd hlate => exact absurd (hzero.unique hd) hlate.ne
  | later hfits hpos hd hlate hstays =>
    cases h' with
    | refused hover => exact absurd hover (not_lt.mpr hfits)
    | nothing _ hnone => exact absurd hnone (not_le.mpr hpos)
    | atOnce _ _ hzero => exact absurd (hzero.unique hd) hlate.ne
    | later _ _ hd' =>
      obtain rfl := hd.unique hd'
      exact ⟨rfl, rfl⟩
    | givenUp _ _ hd' _ hx hleaves =>
      obtain rfl := hd.unique hd'
      exact absurd (hstays _ hx) (not_lt.mpr hleaves)
  | givenUp hfits hpos hd hlate hx hleaves =>
    cases h' with
    | refused hover => exact absurd hover (not_lt.mpr hfits)
    | nothing _ hnone => exact absurd hnone (not_le.mpr hpos)
    | atOnce _ _ hzero => exact absurd (hzero.unique hd) hlate.ne
    | later _ _ hd' _ hstays =>
      obtain rfl := hd.unique hd'
      exact absurd (hstays _ hx) (not_lt.mpr hleaves)
    | givenUp _ _ hd' _ hx' =>
      obtain rfl := hd.unique hd'
      obtain rfl := Option.mem_unique hx hx'
      exact ⟨rfl, rfl⟩

theorem Serves.kept {now : Rat} {p : Plan} {s : Stay} {d : Reservoir} (h : c.Serves now p s d) :
    d.capacity = c.capacity ∧ d.rate = c.rate := by
  cases h with
  | refused | nothing | atOnce | later | givenUp => exact ⟨rfl, rfl⟩

theorem ServesAll.unique {now clock clock' : Rat} {ps : List Plan} {ss ts : List Stay}
    {d e : Reservoir} (h : c.ServesAll now ps ss d clock) (h' : c.ServesAll now ps ts e clock') :
    ss = ts := by
  induction h generalizing ts with
  | nil =>
    cases h'
    rfl
  | cons hone _ ih =>
    cases h' with
    | cons hone' hrest' =>
      obtain ⟨rfl, rfl⟩ := hone.unique hone'
      rw [ih hrest']

end Reservoir

namespace Bucket

/-- A bucket shows, whenever it is looked at, the level of a reservoir. -/
structure Shows (b : Bucket Rat) (now : Rat) (c : Reservoir) : Prop where
  sound : b.Sound
  last : b.last.value ≤ now
  capacity : c.capacity = b.full
  rate : c.rate = b.quantum.value
  level : c.level = b.levelAt now

namespace Shows

variable {b : Bucket Rat} {now : Rat} {c : Reservoir}

theorem level_le (h : b.Shows now c) : c.level ≤ c.capacity := by
  rw [h.level, h.capacity]
  exact Sound.levelAt_le b now

theorem rate_pos (h : b.Shows now c) : 0 < c.rate := by
  rw [h.rate]
  exact h.sound.rate

/-- It goes on to do so while time passes. -/
theorem pass (h : b.Shows now c) {d : Rat} (hd : 0 ≤ d) : b.Shows (now + d) (c.pass d) := by
  have hlater : now ≤ now + d := le_add_of_nonneg_right hd
  refine ⟨h.sound, h.last.trans hlater, h.capacity, h.rate, ?_⟩
  -- Looking at the level now changes nothing about the level later.
  have hnow : b.last.value ≤ (Amount.real now).value := h.last
  have hrefill := h.sound.levelAt_refill hnow hlater
  rw [← hrefill, Reservoir.pass, h.capacity, h.level, h.rate]
  simp only [levelAt, Amount.value_real, add_sub_cancel_left, max_eq_right hd]

/-- The level as a caller would work it out. -/
theorem level_eq (h : b.Shows now c) :
    min b.full (b.available + b.quantum.value * (now - b.last.value)) = c.level := by
  rw [h.level, levelAt, max_eq_right (sub_nonneg.mpr h.last), mul_comm]

/-- Both are brought to some level at some instant. -/
theorem set (h : b.Shows now c) {n : Rat} (hn : 0 ≤ n) (hfits : n ≤ c.capacity) (x : Rat) :
    Shows { b with available := n, last := .real x } x { c with level := n } := by
  have hfull : n ≤ b.full := h.capacity ▸ hfits
  refine ⟨⟨h.sound.full, h.sound.rate, hn, hfull⟩, le_refl x, h.capacity, h.rate, ?_⟩
  simp only [levelAt, Amount.value_real, sub_self, max_self, zero_mul, add_zero, min_eq_right hfull]

/-- A call goes as it would on the reservoir. -/
theorem serve (h : b.Shows now c) (p : Plan) :
    ∃ d, c.Serves now p (b.serve now p).2 d ∧ (b.serve now p).1.Shows (b.serve now p).2.ends d := by
  have hcapacity : c.capacity = b.capacity.value := h.capacity.trans h.sound.full
  have hlevel : 0 ≤ c.level := h.level ▸ h.sound.levelAt_nonneg now
  rw [serve_eq, ← hcapacity, ← h.level, ← h.rate]
  by_cases hover : c.capacity < p.tokens.value
  · rw [if_pos hover]
    exact ⟨c, .refused hover, h⟩
  rw [if_neg hover]
  have hfits := not_lt.mp hover
  by_cases hnone : p.tokens.value ≤ 0
  · rw [if_pos hnone]
    exact ⟨c, .nothing hfits hnone, h⟩
  rw [if_neg hnone]
  have hpos := not_le.mp hnone
  by_cases hthere : p.tokens.value ≤ c.level
  · rw [if_pos hthere]
    have hleft : c.level - p.tokens.value ≤ c.capacity := (sub_le_self _ hpos.le).trans h.level_le
    exact ⟨c.draw p.tokens.value, .atOnce hfits hpos (Reservoir.reaches_zero h.level_le hthere),
      h.set (sub_nonneg.mpr hthere) hleft now⟩
  rw [if_neg hthere]
  have hmissing := not_le.mp hthere
  have hreaches := Reservoir.reaches_missing h.rate_pos hfits hmissing.le
  have hlate := div_pos (sub_pos.mpr hmissing) h.rate_pos
  -- The sleep is the time in which the level gets there; `d` stands for it.
  generalize hd : (p.tokens.value - c.level) / c.rate = d at hreaches hlate ⊢
  dsimp only
  cases hup : p.patience.filter fun x : NNRat => (x : Rat) ≤ d with
  | some x =>
    obtain ⟨hx, hleaves⟩ := Option.filter_eq_some_iff.mp hup
    have hbegun := h.set hlevel h.level_le now
    exact ⟨c.pass x, .givenUp hfits hpos hreaches hlate hx (of_decide_eq_true hleaves),
      hbegun.pass x.2⟩
  | none =>
    have hstays : ∀ x ∈ p.patience, d < x := by
      intro x hx
      by_contra hlt
      have hkept : p.patience.filter (fun x : NNRat => (x : Rat) ≤ d) = some x :=
        Option.filter_eq_some_iff.mpr ⟨hx, decide_eq_true (not_lt.mp hlt)⟩
      cases hup.symm.trans hkept
    have hnothing : (c.pass d).draw p.tokens.value = { c with level := 0 } := by
      rw [← hd]
      exact Reservoir.draw_missing h.rate_pos hfits
    refine ⟨_, .later hfits hpos hreaches hlate hstays, ?_⟩
    rw [hnothing]
    exact h.set (le_refl 0) (hlevel.trans h.level_le) (now + d)

theorem slept_bounds (h : b.Shows now c) (p : Plan) {x : Rat}
    (hx : (b.serve now p).2.slept = some x) : 0 < x ∧ x ≤ c.capacity / c.rate := by
  rw [h.capacity, h.sound.full, h.rate]
  rw [serve_eq] at hx
  by_cases hover : b.capacity.value < p.tokens.value
  · rw [if_pos hover] at hx
    cases hx
  rw [if_neg hover] at hx
  by_cases hnone : p.tokens.value ≤ 0
  · rw [if_pos hnone] at hx
    cases hx
  rw [if_neg hnone] at hx
  by_cases hthere : p.tokens.value ≤ b.levelAt now
  · rw [if_pos hthere] at hx
    cases hx
  rw [if_neg hthere] at hx
  have hbounds := h.sound.missing_bounds (not_le.mp hthere) (not_lt.mp hover)
  dsimp only at hx
  split at hx
  · cases hx
    exact hbounds
  · cases hx
    exact hbounds

/-- Calls in a row go as they would on the reservoir. -/
theorem serveAll (h : b.Shows now c) (ps : List Plan) :
    ∃ d, c.ServesAll now ps (b.serveAll now ps).stays d (b.serveAll now ps).clock ∧
      (b.serveAll now ps).bucket.Shows (b.serveAll now ps).clock d ∧
      d.capacity = c.capacity ∧ d.rate = c.rate ∧
      ∀ s ∈ (b.serveAll now ps).stays, ∀ x, s.slept = some x → 0 < x ∧ x ≤ c.capacity / c.rate := by
  induction ps generalizing b now c with
  | nil => exact ⟨c, .nil c now, h, rfl, rfl, by simp [Bucket.serveAll]⟩
  | cons p ps ih =>
    have hrested := h.pass p.rest.2
    obtain ⟨next, hone, hshows⟩ := hrested.serve p
    obtain ⟨hcapacity, hrate⟩ := hone.kept
    obtain ⟨d, hrest, hlast, hc, hr, hslept⟩ := ih hshows
    rw [hcapacity, hrate] at hslept
    refine ⟨d, .cons hone hrest, hlast, hc.trans hcapacity, hr.trans hrate, ?_⟩
    intro s hs x hx
    rcases List.mem_cons.mp hs with rfl | hs
    · exact hrested.slept_bounds p hx
    · exact hslept s hs x hx

end Shows

/-- **A bucket that is brought up to date on demand is one that fills all the time.** Whatever calls
a single caller makes one after another, they go as on a reservoir that starts full, and on no
reservoir could they go otherwise: the same sleeps, the same ends, the same instants. No sleep is
longer than it takes to fill the bucket. Between calls the level worked out from the last refill is
that of the reservoir, and the calls refused are those for more than the capacity, which leave the
bucket as it was. -/
theorem fills_all_the_time (capacity quantum : Amount Rat) (hcapacity : 0 ≤ capacity.value)
    (hquantum : 0 < quantum.value) (now : Amount Rat) :
    ∃ b, create capacity quantum now = .ok b ∧ ∀ plans : List Plan,
      let r := b.serveAll now.value plans
      (∃ c, (Reservoir.full capacity.value quantum.value).ServesAll now.value plans r.stays c
          r.clock ∧
        ∀ d, 0 ≤ d →
          min capacity.value
              (r.bucket.available + quantum.value * (r.clock + d - r.bucket.last.value)) =
            (c.pass d).level) ∧
      (∀ stays c clock, (Reservoir.full capacity.value quantum.value).ServesAll now.value plans
        stays c clock → stays = r.stays) ∧
      (∀ s ∈ r.stays, ∀ x, s.slept = some x → 0 < x ∧ x ≤ capacity.value / quantum.value) ∧
      ∀ p : Plan,
        ((r.bucket.serve (r.clock + p.rest) p).2.outcome = .refused ↔
          capacity.value < p.tokens.value) ∧
        (capacity.value < p.tokens.value →
          (r.bucket.serve (r.clock + p.rest) p).1 = r.bucket) := by
  refine ⟨_, create_eq hcapacity hquantum now, fun plans => ?_⟩
  have hsound := full_sound hcapacity hquantum now
  have hfresh : Shows ⟨capacity, quantum, capacity.value, capacity.value, now⟩ now.value
      (.full capacity.value quantum.value) := by
    refine ⟨hsound, le_refl _, rfl, rfl, ?_⟩
    simp only [Reservoir.full, levelAt, sub_self, max_self, zero_mul, add_zero, min_self]
  obtain ⟨c, hserves, hshows, hc, hr, hslept⟩ := hfresh.serveAll plans
  have hfull : _ = capacity.value := hshows.capacity.symm.trans hc
  have hrate : _ = quantum.value := hshows.rate.symm.trans hr
  refine ⟨⟨c, hserves, fun d hd => ?_⟩, fun stays e clock h => h.unique hserves, hslept,
    fun p => ?_⟩
  · rw [← (hshows.pass hd).level_eq, hfull, hrate]
  · rw [serve_eq, ← hshows.sound.full, hfull]
    split_ifs with hover hnone hthere
    · simp [hover]
    · simp [hover]
    · simp [hover]
    · dsimp only
      split
      · simp [hover]
      · simp [hover]

/-- Four calls: served at once, given up in its sleep, served after half a second, and for more than
there can ever be. -/
def restless : List Plan :=
  [⟨.whole 2, 0, none⟩, ⟨.whole 2, 1, some ⟨1 / 2, by decide +kernel⟩⟩, ⟨.whole 2, 0, none⟩,
    ⟨.whole 3, 1, none⟩]

theorem restless_fills :
    ∃ b, create (.whole 2) (.whole 1) (.whole 0) = .ok b ∧
      (b.serveAll 0 restless).stays = [⟨none, .granted, 0⟩, ⟨some 1, .givenUp, 3 / 2⟩,
        ⟨some (1 / 2), .granted, 2⟩, ⟨none, .refused, 3⟩] ∧
      (b.serveAll 0 restless).clock = 3 ∧
      (∃ c, (Reservoir.full 2 1).ServesAll 0 restless (b.serveAll 0 restless).stays c
          (b.serveAll 0 restless).clock ∧
        (c.pass (1 / 2)).level = 3 / 2) ∧
      ∀ s ∈ (b.serveAll 0 restless).stays, ∀ x, s.slept = some x → 0 < x ∧ x ≤ 2 / 1 := by
  obtain ⟨b, hb, hall⟩ :=
    fills_all_the_time (.whole 2) (.whole 1) (by decide) (by decide) (.whole 0)
  have hmade : b = ⟨.whole 2, .whole 1, 2, 2, .whole 0⟩ := by
    cases hb
    rfl
  subst hmade
  obtain ⟨⟨c, hserves, hlevel⟩, -, hslept, -⟩ := hall restless
  refine ⟨_, hb, by decide +kernel, by decide +kernel, ⟨c, hserves, ?_⟩, hslept⟩
  rw [← hlevel (1 / 2) (by decide +kernel)]
  decide +kernel

end Bucket

end FleetProbe
