import Mathlib.Data.List.Basic
import FleetProbe.Catalog.Query
import FleetProbe.Catalog.Session
/-!
What a client keeps of its HTTP sessions: the number of the one in use, and a mark whether it is to
close that one. The sessions themselves are out in the world, where anybody who has one may close it.

Whatever happens, only the newest session can be open, and the mark is right about whose it is.
Hence an open session is in use, and those of the client's own are closed when the client has closed.
-/

namespace FleetProbe.Catalog

namespace Session

def shut (s : Session) : Session := { s with isOpen := false }

/-- An open session that the client opened, and so has to close. -/
def isOwed (s : Session) : Bool := !s.given && s.isOpen

end Session

/-- What happens to a client and to its sessions. -/
inductive Happening where
  | query (r : Request)
  | close
  /-- The client is left as a context, for whatever reason. -/
  | leave
  /-- Somebody else closes the session of that number. -/
  | shut (n : Nat)

namespace Happening

def Asks : Happening → Prop
  | .query _ => True
  | _ => False

/-- The client gives up its session. -/
def Closes : Happening → Prop
  | .close | .leave => True
  | _ => False

end Happening

/-- The caller gave an open session, and nobody has closed it. -/
def Lent (given : Option Bool) (history : List Happening) : Prop :=
  given = some true ∧ .shut 0 ∉ history

/-- A client with its own notes of its sessions, and the sessions as they are. -/
structure Keeper where
  /-- All sessions there have been, the oldest first. -/
  pool : List Session
  /-- Number of the session in use. -/
  current : Option Nat
  /-- The client is to close the session in use. -/
  owns : Bool

namespace Keeper

/-- A new client, perhaps with a session of the caller's, which may be closed already. -/
def start : Option Bool → Keeper
  | none => ⟨[], none, true⟩
  | some isOpen => ⟨[⟨true, isOpen⟩], some 0, false⟩

def inUse? (k : Keeper) : Option Session := k.current.bind (k.pool[·]?)

/-- Opens a session and goes on with that one. -/
def renew (k : Keeper) : Keeper := ⟨k.pool ++ [⟨false, true⟩], some k.pool.length, true⟩

/-- The session in use is kept as long as it is open. -/
def acquire (k : Keeper) : Keeper :=
  match k.inUse? with
  | some s => if s.isOpen then k else k.renew
  | none => k.renew

def shut (k : Keeper) (n : Nat) : Keeper := { k with pool := k.pool.modify n Session.shut }

/-- The session in use is closed if it is open and the client is to close it. -/
def close (k : Keeper) : Keeper :=
  match k.current, k.inUse? with
  | some n, some s => if k.owns && s.isOpen then k.shut n else k
  | _, _ => k

def step (k : Keeper) : Happening → Keeper
  | .query _ => k.acquire
  | .close | .leave => k.close
  | .shut n => k.shut n

def run (k : Keeper) (history : List Happening) : Keeper := history.foldl step k

/-- What holds of a client at all times. Only its newest session may be open; that is the one in
use, and the client is to close it unless it was given. -/
inductive Sound : Keeper → Prop where
  | bare : Sound ⟨[], none, true⟩
  | kept (older : List Session) (s : Session) (closed : ∀ x ∈ older, x.isOpen = false) :
      Sound ⟨older ++ [s], some older.length, !s.given⟩

/-- No session is open that the client would have to close. -/
def Settled (k : Keeper) : Prop := ∀ x ∈ k.pool, x.isOwed = false

theorem run_append (k : Keeper) (before after : List Happening) :
    k.run (before ++ after) = (k.run before).run after := List.foldl_append

theorem run_cons (k : Keeper) (e : Happening) (history : List Happening) :
    k.run (e :: history) = (k.step e).run history := rfl

theorem shut_bare (n : Nat) : shut ⟨[], none, true⟩ n = ⟨[], none, true⟩ := by
  simp [shut]

section Kept

variable (older : List Session) (s : Session) (owns : Bool)

theorem inUse?_kept : inUse? ⟨older ++ [s], some older.length, owns⟩ = some s := by
  simp [inUse?]

theorem acquire_kept : acquire ⟨older ++ [s], some older.length, owns⟩ =
    if s.isOpen then ⟨older ++ [s], some older.length, owns⟩
    else renew ⟨older ++ [s], some older.length, owns⟩ := by
  rw [acquire, inUse?_kept]

theorem shut_newest : shut ⟨older ++ [s], some older.length, owns⟩ older.length =
    ⟨older ++ [s.shut], some older.length, owns⟩ := by
  simp [shut, List.modify_eq_set_getElem?]

theorem close_kept : close ⟨older ++ [s], some older.length, !s.given⟩ =
    ⟨older ++ [if s.given then s else s.shut], some older.length, !s.given⟩ := by
  unfold close
  rw [inUse?_kept]
  simp only [shut_newest]
  obtain ⟨given, isOpen⟩ := s
  cases given <;> cases isOpen <;> rfl

theorem getElem?_older {older : List Session} {n : Nat} {x : Session}
    (hx : (older ++ [s])[n]? = some x) (hn : n ≠ older.length) : older[n]? = some x := by
  have hbound := (List.getElem?_eq_some_iff.mp hx).1
  rw [List.length_append, List.length_singleton] at hbound
  rw [← hx, List.getElem?_append_left (by omega)]

/-- Closing a session that is closed already changes nothing. -/
theorem shut_older {older : List Session} (closed : ∀ x ∈ older, x.isOpen = false) {n : Nat}
    (hn : n ≠ older.length) : shut ⟨older ++ [s], some older.length, owns⟩ n =
      ⟨older ++ [s], some older.length, owns⟩ := by
  have hpool : (older ++ [s]).modify n Session.shut = older ++ [s] := by
    rw [List.modify_eq_set_getElem?]
    cases hx : (older ++ [s])[n]? with
    | none => rfl
    | some x =>
      have hclosed : x.isOpen = false := closed x (List.mem_of_getElem? (getElem?_older s hx hn))
      have hsame : x.shut = x := by rw [Session.shut, ← hclosed]
      obtain ⟨hbound, rfl⟩ := List.getElem?_eq_some_iff.mp hx
      simp [hsame]
  rw [shut, hpool]

end Kept

theorem acquire_cases (k : Keeper) : k.acquire = k ∨ k.acquire = k.renew := by
  unfold acquire
  split
  · split
    · exact .inl rfl
    · exact .inr rfl
  · exact .inr rfl

theorem start_sound (given : Option Bool) : (start given).Sound := by
  cases given with
  | none => exact .bare
  | some isOpen => exact .kept [] ⟨true, isOpen⟩ (by simp)

namespace Sound

variable {k : Keeper}

theorem acquire (h : k.Sound) : k.acquire.Sound := by
  cases h with
  | bare => exact .kept [] ⟨false, true⟩ (by simp)
  | kept older s closed =>
    rw [acquire_kept]
    split
    · exact .kept older s closed
    · next hclosed =>
      -- The session that was in use joins the older ones, all of them closed.
      rw [renew]
      refine .kept (older ++ [s]) ⟨false, true⟩ fun x hx => ?_
      obtain hx | hx := List.mem_append.mp hx
      · exact closed x hx
      · cases List.mem_singleton.mp hx
        simpa using hclosed

theorem close (h : k.Sound) : k.close.Sound := by
  cases h with
  | bare => exact .bare
  | kept older s closed =>
    have hkept := kept older (if s.given then s else s.shut) closed
    have hgiven : (if s.given then s else s.shut).given = s.given := by
      split
      · rfl
      · rfl
    rw [hgiven] at hkept
    rw [close_kept]
    exact hkept

theorem shut (h : k.Sound) (n : Nat) : (k.shut n).Sound := by
  cases h with
  | bare =>
    rw [shut_bare]
    exact .bare
  | kept older s closed =>
    by_cases hn : n = older.length
    · rw [hn, shut_newest]
      exact .kept older s.shut closed
    · rw [shut_older s _ closed hn]
      exact .kept older s closed

theorem step (h : k.Sound) (e : Happening) : (k.step e).Sound := by
  cases e with
  | query r => exact h.acquire
  | close => exact h.close
  | leave => exact h.close
  | shut n => exact h.shut n

theorem run (h : k.Sound) (history : List Happening) : (k.run history).Sound := by
  induction history generalizing k with
  | nil => exact h
  | cons e history ih => exact ih (h.step e)

/-- An open session is in use. -/
theorem inUse?_of_open (h : k.Sound) {n : Nat} {s : Session} (hn : k.pool[n]? = some s)
    (hopen : s.isOpen = true) : k.inUse? = some s := by
  cases h with
  | bare => cases hn
  | kept older newest closed =>
    rw [inUse?_kept]
    by_cases hlast : n = older.length
    · rw [hlast, List.getElem?_concat_length] at hn
      exact hn
    · have holder := closed s (List.mem_of_getElem? (getElem?_older newest hn hlast))
      rw [hopen] at holder
      cases holder

/-- A query finds an open session. -/
theorem acquire_open (h : k.Sound) : ∃ s, k.acquire.inUse? = some s ∧ s.isOpen = true := by
  cases h with
  | bare => exact ⟨⟨false, true⟩, rfl, rfl⟩
  | kept older s closed =>
    rw [acquire_kept]
    split
    · next hopen => exact ⟨s, inUse?_kept older s _, hopen⟩
    · exact ⟨⟨false, true⟩, inUse?_kept (older ++ [s]) _ true, rfl⟩

theorem owed_le_one (h : k.Sound) : k.pool.countP Session.isOwed ≤ 1 := by
  cases h with
  | bare => simp
  | kept older s closed =>
    have holder : older.countP Session.isOwed = 0 :=
      List.countP_eq_zero.mpr fun x hx => by simp [Session.isOwed, closed x hx]
    rw [List.countP_append, holder, Nat.zero_add]
    exact List.countP_le_length

/-- A client that has closed has nothing left to close. -/
theorem close_settled (h : k.Sound) : k.close.Settled := by
  cases h with
  | bare => exact fun x hx => by cases hx
  | kept older s closed =>
    rw [close_kept]
    intro x hx
    obtain hx | hx := List.mem_append.mp hx
    · simp [Session.isOwed, closed x hx]
    · rw [List.mem_singleton.mp hx]
      cases hgiven : s.given with
      | true => simp [Session.isOwed, hgiven]
      | false => simp [Session.isOwed, Session.shut]

theorem shut_settled (h : k.Sound) (hsettled : k.Settled) (n : Nat) : (k.shut n).Settled := by
  cases h with
  | bare =>
    rw [shut_bare]
    exact hsettled
  | kept older s closed =>
    by_cases hn : n = older.length
    · rw [hn, shut_newest]
      intro x hx
      obtain hx | hx := List.mem_append.mp hx
      · exact hsettled x (List.mem_append_left _ hx)
      · simp [List.mem_singleton.mp hx, Session.isOwed, Session.shut]
    · rw [shut_older s _ closed hn]
      exact hsettled

/-- Only a query can make a client open a session. -/
theorem run_settled (h : k.Sound) (hsettled : k.Settled) {history : List Happening}
    (hquiet : ∀ e ∈ history, ¬ e.Asks) : (k.run history).Settled := by
  induction history generalizing k with
  | nil => exact hsettled
  | cons e history ih =>
    have hstep : (k.step e).Settled := by
      cases e with
      | query r => exact absurd trivial (hquiet _ List.mem_cons_self)
      | close => exact h.close_settled
      | leave => exact h.close_settled
      | shut n => exact h.shut_settled hsettled n
    exact ih (h.step e) hstep fun x hx => hquiet x (List.mem_cons_of_mem e hx)

/-- Sessions keep their numbers, and those that join are the client's own. -/
theorem step_givens (h : k.Sound) (e : Happening) : ∃ m, (k.step e).pool.map Session.given =
    k.pool.map Session.given ++ List.replicate m false := by
  have hclose : ∃ m, k.close.pool.map Session.given =
      k.pool.map Session.given ++ List.replicate m false := by
    refine ⟨0, ?_⟩
    cases h with
    | bare => rfl
    | kept older s closed =>
      rw [close_kept]
      cases hgiven : s.given with
      | true => simp
      | false => simp [Session.shut]
  cases e with
  | query r =>
    obtain hsame | hrenewed := acquire_cases k
    · exact ⟨0, by simp [Keeper.step, hsame]⟩
    · exact ⟨1, by simp [Keeper.step, hrenewed, renew]⟩
  | close => exact hclose
  | leave => exact hclose
  | shut m =>
    refine ⟨0, List.ext_getElem? fun n => ?_⟩
    simp only [Keeper.step, Keeper.shut, List.getElem?_map, List.getElem?_modify, List.replicate,
      List.append_nil]
    cases k.pool[n]? with
    | none => rfl
    | some s =>
      by_cases hm : m = n
      · simp [hm, Session.shut]
      · simp [hm]

theorem run_givens (h : k.Sound) (history : List Happening) :
    ∃ m, (k.run history).pool.map Session.given =
      k.pool.map Session.given ++ List.replicate m false := by
  induction history generalizing k with
  | nil => exact ⟨0, by simp [Keeper.run]⟩
  | cons e history ih =>
    obtain ⟨first, hfirst⟩ := h.step_givens e
    obtain ⟨more, hmore⟩ := ih (h.step e)
    refine ⟨first + more, ?_⟩
    rw [run_cons, hmore, hfirst, List.append_assoc, List.replicate_append_replicate]

/-- What the client does leaves a session alone that it was given. -/
theorem close_given (h : k.Sound) {n : Nat} {s : Session} (hn : k.pool[n]? = some s)
    (hgiven : s.given = true) : k.close.pool[n]? = some s := by
  cases h with
  | bare => exact hn
  | kept older newest closed =>
    rw [close_kept]
    cases hnewest : newest.given with
    | true => exact hn
    | false =>
      -- The newest session is the client's own, so the given one is among the older.
      have hne : n ≠ older.length := by
        rintro rfl
        rw [List.getElem?_concat_length, Option.some.injEq] at hn
        rw [hn, hgiven] at hnewest
        cases hnewest
      have holder := getElem?_older newest hn hne
      rw [List.getElem?_append_left (List.getElem?_eq_some_iff.mp holder).1, holder]

theorem step_given (h : k.Sound) (e : Happening) {n : Nat} {s : Session}
    (hn : k.pool[n]? = some s) (hgiven : s.given = true) :
    ∃ t, (k.step e).pool[n]? = some t ∧ t.given = true ∧
      (t.isOpen = true ↔ s.isOpen = true ∧ .shut n ≠ e) := by
  cases e with
  | query r =>
    refine ⟨s, ?_, hgiven, by simp⟩
    obtain hsame | hrenewed := acquire_cases k
    · rw [Keeper.step, hsame, hn]
    · rw [Keeper.step, hrenewed, renew,
        List.getElem?_append_left (List.getElem?_eq_some_iff.mp hn).1, hn]
  | close => exact ⟨s, h.close_given hn hgiven, hgiven, by simp⟩
  | leave => exact ⟨s, h.close_given hn hgiven, hgiven, by simp⟩
  | shut m =>
    refine ⟨if m = n then s.shut else s, ?_, ?_, ?_⟩
    · simp [Keeper.step, Keeper.shut, List.getElem?_modify, hn]
    · split
      · exact hgiven
      · exact hgiven
    · split
      · next hm => simp [Session.shut, hm]
      · next hm => simp [Ne.symm hm]

/-- A session that was given stays open until somebody else closes it. -/
theorem run_given (h : k.Sound) (history : List Happening) {n : Nat} {s : Session}
    (hn : k.pool[n]? = some s) (hgiven : s.given = true) :
    ∃ t, (k.run history).pool[n]? = some t ∧ t.given = true ∧
      (t.isOpen = true ↔ s.isOpen = true ∧ .shut n ∉ history) := by
  induction history generalizing k s with
  | nil => exact ⟨s, hn, hgiven, by simp⟩
  | cons e history ih =>
    obtain ⟨t, ht, htgiven, htopen⟩ := h.step_given e hn hgiven
    obtain ⟨u, hu, hugiven, huopen⟩ := ih (h.step e) ht htgiven
    refine ⟨u, hu, hugiven, ?_⟩
    rw [huopen, htopen, List.mem_cons, not_or, and_assoc]

/-- A session of the client's own is closed whenever the client has closed. -/
theorem close_own (h : k.Sound) (history : List Happening) {n : Nat} {s : Session}
    (hn : k.pool[n]? = some s) (hown : s.given = false) :
    (k.run history).close.pool[n]? = some ⟨false, false⟩ := by
  obtain ⟨m, hgivens⟩ := h.run_givens (history ++ [.close])
  rw [run_append] at hgivens
  have hlabel : ((k.run history).close.pool.map Session.given)[n]? = some false := by
    have hbound := (List.getElem?_eq_some_iff.mp hn).1
    calc ((k.run history).close.pool.map Session.given)[n]?
        = (k.pool.map Session.given ++ List.replicate m false)[n]? := congrArg (·[n]?) hgivens
      _ = (k.pool.map Session.given)[n]? := List.getElem?_append_left (by simpa using hbound)
      _ = some false := by rw [List.getElem?_map, hn, Option.map_some, hown]
  rw [List.getElem?_map, Option.map_eq_some_iff] at hlabel
  obtain ⟨t, ht, htgiven⟩ := hlabel
  have htsettled := (h.run history).close_settled t (List.mem_of_getElem? ht)
  rw [Session.isOwed, htgiven, Bool.not_false, Bool.true_and] at htsettled
  obtain ⟨tgiven, topen⟩ := t
  obtain rfl : tgiven = false := htgiven
  obtain rfl : topen = false := htsettled
  exact ht

end Sound

/-- Only the oldest session can be one that was given. -/
theorem start_run_given {given : Option Bool} {history : List Happening} {n : Nat} {s : Session}
    (hn : ((start given).run history).pool[n]? = some s) (hgiven : s.given = true) :
    n = 0 ∧ given.isSome = true := by
  obtain ⟨m, hgivens⟩ := (start_sound given).run_givens history
  have hlabel : (((start given).run history).pool.map Session.given)[n]? = some true := by
    rw [List.getElem?_map, hn, Option.map_some, hgiven]
  rw [hgivens] at hlabel
  cases given with
  | none => simp [start, List.getElem?_replicate] at hlabel
  | some isOpen =>
    cases n with
    | zero => exact ⟨rfl, rfl⟩
    | succ n => simp [start, List.getElem?_replicate] at hlabel

theorem start_run_lent {given : Option Bool} (hgiven : given.isSome = true)
    (history : List Happening) : ∃ s, ((start given).run history).pool[0]? = some s ∧
      s.given = true ∧ (s.isOpen = true ↔ Lent given history) := by
  obtain ⟨isOpen, rfl⟩ := Option.isSome_iff_exists.mp hgiven
  obtain ⟨s, hs, hsgiven, hsopen⟩ := (start_sound (some isOpen)).run_given history
    (n := 0) (s := ⟨true, isOpen⟩) rfl rfl
  exact ⟨s, hs, hsgiven, by simpa [Lent] using hsopen⟩

/-- A client with nothing to close goes on with the session it was given if that one is open, and
opens a fresh one otherwise. -/
theorem acquire_settled {given : Option Bool} {history : List Happening}
    (hsettled : ((start given).run history).Settled) :
    (Lent given history → ((start given).run history).acquire = (start given).run history) ∧
      (¬ Lent given history →
        ((start given).run history).acquire = ((start given).run history).renew) := by
  have hsound := (start_sound given).run history
  constructor
  · intro h
    have hsome : given.isSome = true := Option.isSome_of_eq_some h.1
    obtain ⟨s, hs, -, hopen⟩ := start_run_lent hsome history
    rw [acquire, hsound.inUse?_of_open hs (hopen.mpr h)]
    exact if_pos (hopen.mpr h)
  · intro h
    rw [acquire]
    split
    · next s hs =>
      refine if_neg fun hopen => h ?_
      obtain ⟨n, -, hn⟩ := Option.bind_eq_some_iff.mp hs
      -- An open session that need not be closed was given, and so it is the oldest.
      have hgiven : s.given = true := by
        simpa [Session.isOwed, hopen] using hsettled s (List.mem_of_getElem? hn)
      obtain ⟨rfl, hsome⟩ := start_run_given hn hgiven
      obtain ⟨x, hx, -, hxopen⟩ := start_run_lent hsome history
      cases hn.symm.trans hx
      exact hxopen.mp hopen
    · rfl

/-- The same sessions, the newest first. -/
def sessions (k : Keeper) : Sessions := k.pool.reverse

theorem sessions_kept (older : List Session) (s : Session) (current : Option Nat) (owns : Bool) :
    sessions ⟨older ++ [s], current, owns⟩ = s :: older.reverse := List.reverse_concat

namespace Sound

variable {k : Keeper}

theorem sessions_acquire (h : k.Sound) : k.acquire.sessions = k.sessions.acquire := by
  cases h with
  | bare => rfl
  | kept older s closed =>
    rw [acquire_kept, sessions_kept, Sessions.acquire]
    split
    · exact sessions_kept older s _ _
    · rw [renew, sessions_kept, List.reverse_concat]

theorem sessions_close (h : k.Sound) : k.close.sessions = k.sessions.close := by
  cases h with
  | bare => rfl
  | kept older s closed =>
    rw [close_kept, sessions_kept, sessions_kept, Sessions.close]
    rfl

theorem inUse?_eq (h : k.Sound) : k.inUse? = k.sessions.head? := by
  cases h with
  | bare => rfl
  | kept older s closed => rw [inUse?_kept, sessions_kept, List.head?_cons]

/-- Whoever closes a session closes the newest, or one that is closed already. -/
theorem sessions_shut (h : k.Sound) (n : Nat) : (k.shut n).sessions =
    if n + 1 = k.sessions.length then k.sessions.drop else k.sessions := by
  cases h with
  | bare =>
    rw [shut_bare]
    exact (if_neg (Nat.succ_ne_zero n)).symm
  | kept older s closed =>
    have hlast : n + 1 = (s :: older.reverse).length ↔ n = older.length := by simp
    rw [sessions_kept]
    simp only [hlast]
    split
    · next hn =>
      rw [hn, shut_newest, sessions_kept]
      rfl
    · next hn => rw [shut_older s _ closed hn, sessions_kept]

end Sound

end Keeper

end FleetProbe.Catalog
