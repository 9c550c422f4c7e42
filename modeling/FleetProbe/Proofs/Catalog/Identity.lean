import FleetProbe.Proofs.Catalog.Polls
import FleetProbe.Proofs.Text.Decimal
/-!
When nodes have the same key. A key is a name, an address and a port with colons between them; the
port has no colon in it, but names and addresses may, and the colon between them is then not to be
told from theirs.
-/

namespace FleetProbe

namespace Text

/-- Two texts that are cut at a separator are equal when they are cut at the same place, or at
another one where a separator stands. -/
theorem cut_eq_iff {sep : Nat} {a b c d : List Nat} :
    a ++ sep :: b = c ++ sep :: d ↔ (a = c ∧ b = d) ∨
      (∃ x, c = a ++ sep :: x ∧ b = x ++ sep :: d) ∨ ∃ x, a = c ++ sep :: x ∧ d = x ++ sep :: b := by
  rw [List.append_eq_append_iff]
  constructor
  · rintro (⟨x, rfl, hx⟩ | ⟨x, rfl, hx⟩)
    · cases x with
      | nil => exact .inl ⟨(List.append_nil a).symm, (List.cons.inj hx).2⟩
      | cons p x =>
        obtain ⟨rfl, hb⟩ := List.cons.inj hx
        exact .inr (.inl ⟨x, rfl, hb⟩)
    · cases x with
      | nil => exact .inl ⟨List.append_nil c, (List.cons.inj hx).2.symm⟩
      | cons p x =>
        obtain ⟨rfl, hd⟩ := List.cons.inj hx
        exact .inr (.inr ⟨x, rfl, hd⟩)
  · rintro (⟨rfl, rfl⟩ | ⟨x, rfl, rfl⟩ | ⟨x, rfl, rfl⟩)
    · exact .inl ⟨[], (List.append_nil a).symm, rfl⟩
    · exact .inl ⟨sep :: x, rfl, rfl⟩
    · exact .inr ⟨sep :: x, rfl, rfl⟩

/-- Where the ends have no separator, the cut is at the last one. -/
theorem cut_last_iff {sep : Nat} {a b c d : List Nat} (hb : sep ∉ b) (hd : sep ∉ d) :
    a ++ sep :: b = c ++ sep :: d ↔ a = c ∧ b = d := by
  rw [cut_eq_iff]
  constructor
  · rintro (h | ⟨x, -, rfl⟩ | ⟨x, -, rfl⟩)
    · exact h
    · exact absurd (List.mem_append_right x List.mem_cons_self) hb
    · exact absurd (List.mem_append_right x List.mem_cons_self) hd
  · exact .inl

theorem notMem_decimal_ofNat {c : Char} (hc : c.isDigit = false) (n : Nat) :
    c.toNat ∉ decimal n := by
  rw [decimal_ofNat]
  intro h
  obtain ⟨d, hd, hdc⟩ := List.mem_map.mp h
  have hdigit := Nat.isDigit_of_mem_toDigits (by decide) (Nat.le_refl 10) hd
  rw [Char.toNat_inj.mp hdc, hc] at hdigit
  cases hdigit

def colon : Nat := ':'.toNat

theorem colon_notMem_decimal (n : Int) : colon ∉ decimal n := by
  cases n with
  | ofNat n => exact notMem_decimal_ofNat (by decide) n
  | negSucc n =>
    rw [decimal_negSucc, List.mem_cons]
    rintro (h | h)
    · exact absurd h (by decide)
    · exact notMem_decimal_ofNat (by decide) (n + 1) h

theorem decimal_ofNat_injective {m n : Nat} (h : decimal m = decimal n) : m = n := by
  have hchars : Function.Injective Char.toNat := fun _ _ hc => Char.toNat_inj.mp hc
  rw [decimal_ofNat, decimal_ofNat] at h
  have hdigits := List.map_injective_iff.mpr hchars h
  calc m = Nat.ofDigitChars 10 (Nat.toDigits 10 m) 0 := Nat.ofDigitChars_ten_toDigits.symm
    _ = Nat.ofDigitChars 10 (Nat.toDigits 10 n) 0 := by rw [hdigits]
    _ = n := Nat.ofDigitChars_ten_toDigits

theorem decimal_injective {m n : Int} (h : decimal m = decimal n) : m = n := by
  -- Only a negative number begins with a sign.
  have hsign (a b : Nat) : decimal a ≠ decimal (.negSucc b) := by
    intro heq
    refine notMem_decimal_ofNat (c := '-') (by decide) a ?_
    rw [heq, decimal_negSucc]
    exact List.mem_cons_self
  cases m with
  | ofNat m =>
    cases n with
    | ofNat n => exact congrArg Int.ofNat (decimal_ofNat_injective h)
    | negSucc n => exact absurd h (hsign m n)
  | negSucc m =>
    cases n with
    | ofNat n => exact absurd h.symm (hsign n m)
    | negSucc n =>
      rw [decimal_negSucc, decimal_negSucc] at h
      have hsucc := decimal_ofNat_injective (List.cons.inj h).2
      rw [Nat.succ.inj hsucc]

end Text

namespace Catalog

open Text

namespace Node

/-- What ends the name of the service of one node, behind a colon, begins the address of the
other. -/
def Shifts (n m : Node) : Prop :=
  n.port = m.port ∧ ∃ x : Text, m.service = n.service ++ ":" ++ x ∧ n.ip = x ++ ":" ++ m.ip

theorem key_points (n : Node) : n.key.points =
    (n.service.points ++ colon :: n.ip.points) ++ colon :: decimal n.port := by
  simp only [key, socket, append_points, List.append_assoc]
  rfl

theorem shifts_iff {n m : Node} : n.Shifts m ↔ n.port = m.port ∧
    ∃ x, m.service.points = n.service.points ++ colon :: x ∧
      n.ip.points = x ++ colon :: m.ip.points := by
  constructor
  · rintro ⟨hport, x, hservice, hip⟩
    refine ⟨hport, x.points, ?_, ?_⟩
    · rw [hservice, append_points, append_points, List.append_assoc]
      rfl
    · rw [hip, append_points, append_points, List.append_assoc]
      rfl
  · rintro ⟨hport, x, hservice, hip⟩
    refine ⟨hport, ⟨x⟩, points_injective ?_, points_injective ?_⟩
    · rw [hservice, append_points, append_points, List.append_assoc]
      rfl
    · rw [hip, append_points, append_points, List.append_assoc]
      rfl

/-- Two nodes have the same key exactly when they are equal or one shifts to the other. -/
theorem key_eq_iff {n m : Node} : n.key = m.key ↔ n = m ∨ n.Shifts m ∨ m.Shifts n := by
  have hports : decimal n.port = decimal m.port ↔ n.port = m.port :=
    ⟨decimal_injective, congrArg decimal⟩
  have hkeys : n.key = m.key ↔ n.key.points = m.key.points :=
    ⟨congrArg points, points_injective⟩
  rw [hkeys, key_points, key_points,
    cut_last_iff (colon_notMem_decimal n.port) (colon_notMem_decimal m.port), hports, cut_eq_iff,
    shifts_iff, shifts_iff]
  constructor
  · rintro ⟨⟨hservice, hip⟩ | hshift | hshift, hport⟩
    · left
      cases n
      cases m
      cases points_injective hservice
      cases points_injective hip
      cases hport
      rfl
    · exact .inr (.inl ⟨hport, hshift⟩)
    · exact .inr (.inr ⟨hport.symm, hshift⟩)
  · rintro (rfl | ⟨hport, hshift⟩ | ⟨hport, hshift⟩)
    · exact ⟨.inl ⟨rfl, rfl⟩, rfl⟩
    · exact ⟨.inr (.inl hshift), hport⟩
    · exact ⟨.inr (.inr hshift), hport.symm⟩

theorem not_shifts_self (n : Node) : ¬ n.Shifts n := by
  rw [shifts_iff]
  rintro ⟨-, x, hservice, -⟩
  have hlength := congrArg List.length hservice
  simp at hlength

/-- No node of a list shifts to another. -/
def Apart (ns : List Node) : Prop := ∀ n ∈ ns, ∀ m ∈ ns, ¬ n.Shifts m

theorem apart_iff {ns : List Node} :
    Apart ns ↔ ∀ n ∈ ns, ∀ m ∈ ns, n.key = m.key → n = m := by
  constructor
  · intro h n hn m hm hkey
    obtain heq | hshift | hshift := key_eq_iff.mp hkey
    · exact heq
    · exact absurd hshift (h n hn m hm)
    · exact absurd hshift (h m hm n hn)
  · intro h n hn m hm hshift
    obtain rfl := h n hn m hm (key_eq_iff.mpr (.inr (.inl hshift)))
    exact not_shifts_self n hshift

end Node

namespace Snapshot

variable {index : Int} {nodes : List Node}

theorem mem_of_mem_ofNodes {e : Text × Node} (he : e ∈ (ofNodes index nodes).nodes) :
    e.2 ∈ nodes := by
  have hfound := List.mem_of_find?_eq_some ((ofNodes_holds index nodes).last e he)
  exact List.mem_reverse.mp hfound

/-- Where equal keys mean equal nodes, no node is lost. -/
theorem mem_ofNodes {n : Node} (h : Node.Apart nodes) (hn : n ∈ nodes) :
    (n.key, n) ∈ (ofNodes index nodes).nodes := by
  have hkey : n.key ∈ (ofNodes index nodes).keys := by
    rw [(ofNodes_holds index nodes).keys, List.mem_eraseDups]
    exact List.mem_map_of_mem hn
  obtain ⟨⟨key, m⟩, hm, rfl⟩ := List.mem_map.mp hkey
  have hmkey := (ofNodes_wellKeyed index nodes).keyed _ hm
  have hmn := mem_of_mem_ofNodes hm
  have heq : n = m := Node.apart_iff.mp h n hn m hmn hmkey
  rw [heq] at hm ⊢
  exact hm

end Snapshot

namespace Listing

/-- The nodes that an answer adds to what was found. -/
def yield (s : Source) (l : Listing) (o : Outcome) : List Node :=
  match l, (Query.read s l.request o).1 with
  | nodes _ service _, .ok (_, v) => (Nodes.extract service v).1
  | _, _ => []

/-- All nodes that are extracted while a poll takes some answers in. -/
def drawn (s : Source) (l : Listing) : List Outcome → List Node
  | [] => []
  | o :: os => l.yield s o ++
    match (l.step s o).1 with
    | .ask next => next.drawn s os
    | .finish _ => []

theorem drawn_cons (s : Source) (l : Listing) (o : Outcome) (os : List Outcome) {next : Listing}
    (h : (l.step s o).1 = .ask next) : l.drawn s (o :: os) = l.yield s o ++ next.drawn s os := by
  rw [drawn, h]

theorem drawn_finish (s : Source) (l : Listing) (o : Outcome) (os : List Outcome)
    {r : Except QueryFault Snapshot} (h : (l.step s o).1 = .finish r) :
    l.drawn s (o :: os) = l.yield s o := by
  rw [drawn, h, List.append_nil]

/-- The nodes of an answer are added to what was found, whatever comes next. -/
theorem nodes_step_yield (s : Source) (found : Snapshot) (service : Text) (remaining : List Text)
    (o : Outcome) :
    (∃ e, ((nodes found service remaining).step s o).1 = .finish (.error e)) ∨
      ((nodes found service remaining).step s o).1 =
        askNext (((nodes found service remaining).yield s o).foldl Snapshot.add found)
          remaining := by
  cases hread : (Query.read s (nodes found service remaining).request o).1 with
  | error e => exact .inl ⟨e, step_error hread⟩
  | ok read =>
    obtain ⟨index, v⟩ := read
    right
    simp only [yield, hread]
    unfold step
    split
    next answer notes heq =>
      rw [heq] at hread
      cases hread
      rfl

/-- A poll brings what it had found and what it draws. -/
theorem nodes_after (s : Source) {found whole : Snapshot} {service : Text}
    {remaining : List Text} {answers : List Outcome}
    (h : (nodes found service remaining).after s answers = .finish (.ok whole)) :
    whole = ((nodes found service remaining).drawn s answers).foldl Snapshot.add found := by
  induction answers generalizing found service remaining with
  | nil => cases h
  | cons o os ih =>
    obtain ⟨e, hstep⟩ | hstep := nodes_step_yield s found service remaining o
    · simp only [after, hstep] at h
      cases h
    · obtain ⟨name, rest, rfl, -, hend⟩ | ⟨name, rest, rfl, -, hask⟩ | ⟨rfl, hend⟩ := askNext_cases
        (((nodes found service remaining).yield s o).foldl Snapshot.add found) remaining
      · simp only [after, hstep, hend] at h
        cases h
      · rw [hask] at hstep
        rw [after, hstep] at h
        rw [drawn_cons s _ o os hstep, List.foldl_append]
        exact ih h
      · rw [hend] at hstep
        rw [after, hstep] at h
        rw [drawn_finish s _ o os hstep]
        cases h
        rfl

theorem services_after (s : Source) {previous : Int} {tag : Text} {whole : Snapshot}
    {answers : List Outcome}
    (h : (services previous tag).after s answers = .finish (.ok whole)) :
    whole = .ofNodes whole.index ((services previous tag).drawn s answers) := by
  cases answers with
  | nil => cases h
  | cons o os =>
    have hyield : (services previous tag).yield s o = [] := rfl
    cases hread : (Query.read s (services previous tag).request o).1 with
    | error e =>
      rw [after, step_error hread] at h
      cases h
    | ok read =>
      obtain ⟨index, v⟩ := read
      have hstep : ((services previous tag).step s o).1 =
          askNext { index } (Services.matching tag v).1 := by
        unfold step
        split
        next answer notes heq =>
          rw [heq] at hread
          cases hread
          rfl
      obtain ⟨name, rest, hleft, -, hend⟩ | ⟨name, rest, hleft, -, hask⟩ | ⟨hleft, hend⟩ :=
        askNext_cases { index } (Services.matching tag v).1
      · rw [hend] at hstep
        rw [after, hstep] at h
        cases h
      · rw [hask] at hstep
        rw [after, hstep] at h
        have hwhole := nodes_after s h
        have hindex : whole.index = index := by rw [hwhole, Snapshot.foldl_add_index]
        rw [drawn_cons s _ o os hstep, hyield, List.nil_append, hindex]
        exact hwhole
      · rw [hend] at hstep
        rw [after, hstep] at h
        rw [drawn_finish s _ o os hstep, hyield]
        cases h
        rfl

end Listing

/-- A poll of the catalog from beginning to end: what it asks, and the answers it gets. -/
structure Survey where
  source : Source
  previous : Int
  tag : Text
  answers : List Outcome

namespace Survey

def listing (p : Survey) : Listing := .services p.previous p.tag

/-- All nodes that are extracted during the poll. -/
def nodes (p : Survey) : List Node := p.listing.drawn p.source p.answers

/-- The snapshot that the poll comes to, if it comes to one. -/
def snapshot? (p : Survey) : Option Snapshot :=
  match p.listing.after p.source p.answers with
  | .finish (.ok s) => some s
  | _ => none

theorem snapshot?_eq_some {p : Survey} {s : Snapshot} (h : p.snapshot? = some s) :
    s = .ofNodes s.index p.nodes := by
  unfold snapshot? at h
  split at h
  · next found hafter =>
    cases h
    exact Listing.services_after p.source hafter
  · cases h

end Survey

end Catalog

end FleetProbe
