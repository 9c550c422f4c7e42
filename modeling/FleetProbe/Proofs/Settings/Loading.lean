import FleetProbe.Proofs.Settings.Valid
/-!
What loading comes to. Most of what can be wrong with a configuration is a complaint about the
configuration: a file that cannot be opened or is no YAML, a document that is no mapping, values
that are out of range. But some of it is noticed by nobody, and ends the program as it comes: every
such case is a hazard here, and there are no others.
-/

namespace FleetProbe.Settings

/-- The configuration is found fault with. -/
def LoadFault.IsComplaint (f : LoadFault) : Prop :=
  f.fileMessage?.isSome ∨ ∃ is, f = .refused (.issues is)

theorem LoadFault.isComplaint_unreadable (path : Text) (why : Yaml.Fault) :
    (LoadFault.unreadable path why).IsComplaint ↔ why = .malformed := by
  unfold IsComplaint
  cases why <;> simp [fileMessage?]

/-- What keeps a file from being a configuration, good or bad. -/
inductive Unjudged (folder : Folder) (path : Text) : Prop
  /-- A surrogate in the path stands for no byte. -/
  | unwritable (h : Path.bytes? path.points = none)
  | zero (h : path.points.contains 0 = true)
  | notText {bytes : List UInt8} (hread : folder.read (.ofText path) = .ok bytes)
      (h : Text.decodePoints? bytes = none)
  /-- The reader of the document fails, but not on its syntax. -/
  | unsound {bytes : List UInt8} {ps : List Nat} {why : Yaml.Fault}
      (hread : folder.read (.ofText path) = .ok bytes) (hps : Text.decodePoints? bytes = some ps)
      (h : Yaml.read (Text.unifyLines ps) = .error why) (hwhy : why ≠ .malformed)

theorem configuration_unjudged {folder : Folder} {path : Text} {f : LoadFault}
    (h : configuration folder path = .error f) (hf : ¬ f.IsComplaint) : Unjudged folder path := by
  unfold configuration at h
  dsimp only at h
  split at h
  · next hpath => exact .unwritable (Option.isNone_iff_eq_none.mp hpath)
  · split at h
    · next hzero => exact .zero hzero
    · split at h
      · cases h
        exact absurd (.inl rfl) hf
      · next bytes hread =>
        split at h
        · next hbytes => exact .notText hread hbytes
        · next ps hps =>
          split at h
          · next why hwhy =>
            cases h
            refine .unsound hread hps hwhy ?_
            rwa [LoadFault.isComplaint_unreadable] at hf
          · split at h
            · cases h
            · split at h
              · cases h
                exact absurd (.inl rfl) hf
              · cases h

theorem Unjudged.configuration {folder : Folder} {path : Text} (h : Unjudged folder path) :
    ∃ f, configuration folder path = .error f ∧ ¬ f.IsComplaint := by
  -- A path may be bad in two ways at once; the first to be checked is the fault.
  by_cases hpath : (Path.bytes? path.points).isNone = true
  · refine ⟨.unwritablePath, ?_, ?_⟩
    · simp [Settings.configuration, hpath]
    · simp [LoadFault.IsComplaint, LoadFault.fileMessage?]
  by_cases hzero : path.points.contains 0 = true
  · refine ⟨.zeroInPath, ?_, ?_⟩
    · unfold Settings.configuration
      rw [if_neg hpath, if_pos hzero]
    · simp [LoadFault.IsComplaint, LoadFault.fileMessage?]
  cases h with
  | unwritable h => exact absurd (Option.isNone_iff_eq_none.mpr h) hpath
  | zero h => exact absurd h hzero
  | notText hread h =>
    refine ⟨.undecodable, ?_, ?_⟩
    · unfold Settings.configuration
      rw [if_neg hpath, if_neg hzero]
      simp only [hread, h]
    · simp [LoadFault.IsComplaint, LoadFault.fileMessage?]
  | @unsound bytes ps why hread hps h hwhy =>
    refine ⟨.unreadable (Path.ofText path).text why, ?_, ?_⟩
    · unfold Settings.configuration
      rw [if_neg hpath, if_neg hzero]
      simp only [hread, hps, h]
    · rwa [LoadFault.isComplaint_unreadable]

def IsNamed (e : Value × Value) : Prop := ∃ name, e.1 = .text name

theorem putField_named (name : Text) (v : Value) (es : List (Value × Value)) :
    (∀ e ∈ putField name v es, IsNamed e) ↔ ∀ e ∈ es, IsNamed e := by
  induction es with
  | nil => simp [putField, IsNamed]
  | cons e es ih =>
    unfold putField
    split
    · next he =>
      have hnamed : IsNamed (e.1, v) ↔ IsNamed e := Iff.rfl
      simp only [List.forall_mem_cons, hnamed]
    · simp only [List.forall_mem_cons, ih]

theorem override_named (es : List (Value × Value)) (given : List (Text × Value)) :
    (∀ e ∈ override es given, IsNamed e) ↔ ∀ e ∈ es, IsNamed e := by
  unfold override
  induction given generalizing es with
  | nil => rfl
  | cons g given ih =>
    obtain ⟨name, v⟩ := g
    rw [List.foldl_cons, ih]
    cases v with
    | null => rfl
    | _ => exact putField_named name _ es

theorem named_cases (es : List (Value × Value)) :
    ((∃ values, named es = .ok values) ∧ ∀ e ∈ es, IsNamed e) ∨
      named es = .error .badName ∧ ¬ ∀ e ∈ es, IsNamed e := by
  induction es with
  | nil => exact .inl ⟨⟨[], rfl⟩, by simp⟩
  | cons e es ih =>
    obtain ⟨key, v⟩ := e
    rw [List.forall_mem_cons]
    cases key with
    | text name =>
      have hnamed : IsNamed (.text name, v) := ⟨name, rfl⟩
      obtain ⟨⟨values, hvalues⟩, hall⟩ | ⟨herror, hsome⟩ := ih
      · exact .inl ⟨⟨(name, v) :: values, by simp [named, hvalues, Except.map]⟩, hnamed, hall⟩
      · exact .inr ⟨by simp [named, herror, Except.map], fun h => hsome h.2⟩
    | _ => exact .inr ⟨rfl, fun h => by simp [IsNamed] at h⟩

/-- Values of the file, if there is one, and those that are given. -/
def gather (start : Surroundings) (path : Option Text) (given : List (Text × Value)) :
    Except LoadFault (List (Text × Value)) := do
  let entries ← match path with
    | none => .ok []
    | some path => configuration start.folder path
  named (override entries given)

/-- The values that settings are read from, those that count first. -/
def layersOf (values : List (Text × Value)) (found : List (List (Text × Value))) : Layers :=
  (values.map fun (name, v) => (Search.smallText name, v)) :: found

/-- What is found besides the values that were gathered. -/
def search (start : Surroundings) (values : List (Text × Value)) :
    Except SearchFault (List (List (Text × Value))) :=
  (Search.ofGiven values).run start (names.map Text.ofString)

/-- The names under which values say how settings are looked for. -/
def searchNames : List Text :=
  ["_case_sensitive", "_env_prefix", "_env_file", "_env_file_encoding", "_env_ignore_empty",
    "_env_parse_none_str", "_secrets_dir"]

theorem ofGiven_plain {values : List (Text × Value)} (h : ∀ e ∈ values, e.1 ∉ searchNames) :
    Search.ofGiven values = Search.ofGiven [] := by
  have hfind (name : String) (hname : Text.ofString name ∈ searchNames) :
      values.find? (fun e => e.1 == Text.ofString name) = none := by
    rw [List.find?_eq_none]
    intro e he heq
    exact h e he (by rwa [beq_iff_eq.mp heq])
  unfold Search.ofGiven
  simp only [hfind "_case_sensitive" (by decide), hfind "_env_prefix" (by decide),
    hfind "_env_file" (by decide), hfind "_env_file_encoding" (by decide),
    hfind "_env_ignore_empty" (by decide), hfind "_env_parse_none_str" (by decide),
    hfind "_secrets_dir" (by decide), List.find?_nil]

/-- Nothing is in the way of looking at the usual file of variables. -/
theorem look_usual (folder : Folder) : ∃ place, Search.look folder ".env" = .ok place := by
  have hpath : Path.ofText ".env" = ⟨0, [".env"]⟩ := by decide
  have hshort : folder.find ⟨0, [".env"]⟩ ≠ .error .nameTooLong := by
    have hpart : ¬ (Path.bytes? (".env" : Text).points).any (255 < ·.length) = true := by decide
    have hwhole : ¬ (Path.bytes? (Path.text ⟨0, [".env"]⟩).points).any
        (Folder.longestPath < ·.length) = true := by decide
    unfold Folder.find
    rw [if_neg hwhole, if_pos rfl]
    simp only [Folder.walk]
    rw [if_neg (by decide), if_neg hpart]
    split
    · simp
    · split <;> simp
  unfold Search.look
  rw [hpath]
  split
  · exact ⟨_, rfl⟩
  · split
    · next hlong => exact absurd hlong hshort
    · exact ⟨_, rfl⟩
    · exact ⟨_, rfl⟩
    · exact ⟨_, rfl⟩

/-- The usual file of variables is read unless it is no text. -/
theorem usualFile_error_iff (start : Surroundings) :
    (∃ why, (Search.ofGiven []).ofFiles start [.text ".env"] = .error why) ↔
      ∃ bytes, Search.look start.folder ".env" = .ok (.file bytes) ∧
        Text.decodePoints? bytes = none := by
  have hdecode (bytes : List UInt8) : (Search.ofGiven []).decode bytes =
      ((Text.decodePoints? bytes).map .ok).getD (.error .undecodable) := rfl
  obtain ⟨place, hplace⟩ := look_usual start.folder
  unfold Search.ofFiles
  rw [hplace]
  cases place with
  | nothing => simp [Search.ofFiles, bind, Except.bind, Except.map]
  | folder parts => simp [Search.ofFiles, bind, Except.bind, Except.map]
  | file bytes =>
    cases hps : Text.decodePoints? bytes with
    | none => simp [hdecode, hps, bind, Except.bind, Except.map]
    | some ps => simp [hdecode, hps, Search.ofFiles, bind, Except.bind, Except.map]

/-- When the values say nothing about it, settings cannot be looked for only where the usual file of
variables is no text. -/
theorem search_plain {start : Surroundings} {values : List (Text × Value)}
    (h : ∀ e ∈ values, e.1 ∉ searchNames) :
    (∃ why, search start values = .error why) ↔
      ∃ bytes, Search.look start.folder ".env" = .ok (.file bytes) ∧
        Text.decodePoints? bytes = none := by
  have hfront : (Search.ofGiven []).front = .text "MEMPOKE_" := rfl
  have hfiles : (Search.ofGiven []).fileVariables start =
      (Search.ofGiven []).ofFiles start [.text ".env"] := rfl
  have hfolders (front : Text) (ns : List Text) :
      (Search.ofGiven []).ofFolders start front ns = .ok [] := by
    have hplaces : Search.places (Search.ofGiven []).folders = some [] := rfl
    have hnone : ns.filterMap (fun _ => (none : Option (Text × List UInt8))) = [] := by
      simp
    unfold Search.ofFolders
    simp [hplaces, hnone, Search.foldersAt, bind, Except.bind, pure, Except.pure]
  rw [← usualFile_error_iff, search, ofGiven_plain h]
  unfold Search.run
  rw [hfiles, hfront]
  cases (Search.ofGiven []).ofFiles start [.text ".env"] with
  | error why => simp [Search.hasLength, bind, Except.bind]
  | ok bound => simp [Search.hasLength, hfolders, bind, Except.bind]

/-- What keeps a configuration from being judged. -/
inductive Hazard (start : Surroundings) (path : Option Text) (given : List (Text × Value)) : Prop
  | file {place : Text} (hpath : path = some place) (h : Unjudged start.folder place)
  /-- The file has a setting whose name is no text. -/
  | name {place : Text} {es : List (Value × Value)} (hpath : path = some place)
      (hfile : configuration start.folder place = .ok es) (h : ¬ ∀ e ∈ es, IsNamed e)
  /-- Settings cannot be looked for in the surroundings. -/
  | search {values : List (Text × Value)} {why : SearchFault}
      (hvalues : gather start path given = .ok values) (h : search start values = .error why)
  /-- The catalog may hold a query for a time beyond all numbers. -/
  | wait {values : List (Text × Value)} {found : List (List (Text × Value))} {v : Value} {t : Text}
      (hvalues : gather start path given = .ok values)
      (hfound : Settings.search start values = .ok found)
      (hv : (layersOf values found).find? "consul_wait" = some v) (ht : text v = .ok t)
      (h : Catalog.Wait.Huge t)

section

variable {start : Surroundings} {path : Option Text} {given : List (Text × Value)}

theorem not_isComplaint_badName : ¬ LoadFault.badName.IsComplaint := by
  simp [LoadFault.IsComplaint, LoadFault.fileMessage?]

theorem gather_of_named (given : List (Text × Value)) {es : List (Value × Value)}
    (hall : ∀ e ∈ es, IsNamed e) :
    ∃ values, named (override es given) = .ok values := by
  obtain ⟨hvalues, -⟩ | ⟨-, hnot⟩ := named_cases (override es given)
  · exact hvalues
  · exact absurd ((override_named es given).mpr hall) hnot

theorem gather_hazard {f : LoadFault} (h : gather start path given = .error f)
    (hf : ¬ f.IsComplaint) : Hazard start path given := by
  cases path with
  | none =>
    have hempty : ∀ e ∈ ([] : List (Value × Value)), IsNamed e := by simp
    obtain ⟨values, hvalues⟩ := gather_of_named given hempty
    have hok : gather start none given = .ok values := hvalues
    rw [hok] at h
    cases h
  | some place =>
    cases hfile : configuration start.folder place with
    | error e =>
      have herror : gather start (some place) given = .error e := by
        simp only [gather, hfile]
        rfl
      rw [herror] at h
      cases h
      exact .file rfl (configuration_unjudged hfile hf)
    | ok es =>
      refine .name rfl hfile fun hall => ?_
      obtain ⟨values, hvalues⟩ := gather_of_named given hall
      have hok : gather start (some place) given = .ok values := by
        simp only [gather, hfile]
        exact hvalues
      rw [hok] at h
      cases h

theorem gather_of_unjudged (given : List (Text × Value)) {place : Text}
    (h : Unjudged start.folder place) :
    ∃ f, gather start (some place) given = .error f ∧ ¬ f.IsComplaint := by
  obtain ⟨f, hfile, hf⟩ := h.configuration
  refine ⟨f, ?_, hf⟩
  simp only [gather, hfile]
  rfl

theorem gather_of_unnamed {place : Text} {es : List (Value × Value)}
    (hfile : configuration start.folder place = .ok es) (h : ¬ ∀ e ∈ es, IsNamed e) :
    gather start (some place) given = .error .badName := by
  obtain ⟨-, hall⟩ | ⟨herror, -⟩ := named_cases (override es given)
  · exact absurd ((override_named es given).mp hall) h
  · simp only [gather, hfile]
    exact herror

theorem isHugeWait_iff (v : Value) :
    isHugeWait v = true ↔ ∃ t, text v = .ok t ∧ Catalog.Wait.Huge t := by
  unfold isHugeWait
  cases text v with
  | error e => simp
  | ok t =>
    simp only [← Catalog.Wait.seconds_tooLarge_iff, Except.ok.injEq, exists_eq_left']
    cases Catalog.Wait.seconds t with
    | error e => cases e <;> simp
    | ok x => simp

theorem read_hugeWait_iff (layers : Layers) :
    (∃ f, read layers = .error f ∧ ¬ (LoadFault.refused f).IsComplaint) ↔
      ∃ v t, layers.find? "consul_wait" = some v ∧ text v = .ok t ∧ Catalog.Wait.Huge t := by
  have hhuge : (∃ v t, layers.find? "consul_wait" = some v ∧ text v = .ok t ∧ Catalog.Wait.Huge t) ↔
      (layers.find? "consul_wait").any isHugeWait = true := by
    simp [Option.any_eq_true, isHugeWait_iff]
  rw [hhuge]
  unfold read
  split
  · next h =>
    refine iff_of_true ⟨.hugeWait, rfl, ?_⟩ h
    simp [LoadFault.IsComplaint, LoadFault.fileMessage?]
  · next h =>
    refine iff_of_false ?_ h
    rintro ⟨f, hf, hcomplaint⟩
    split at hf
    · cases hf
    · cases hf
      exact hcomplaint (.inr ⟨_, rfl⟩)

theorem load_eq : load start path given =
    gather start path given >>= fun values =>
      (search start values).mapError LoadFault.lost >>= fun found =>
        (read (layersOf values found)).mapError LoadFault.refused := by
  unfold load gather search
  cases path with
  | none | some =>
    simp only [bind_assoc]
    refine bind_congr fun entries => bind_congr fun values => ?_
    cases (Search.ofGiven values).run start (names.map Text.ofString) with
    | error why => rfl
    | ok found =>
      dsimp only
      split
      · next s hs =>
        have hread : read (layersOf values found) = .ok s := hs
        simp [hread, Except.mapError, bind, Except.bind]
      · next why hwhy =>
        have hread : read (layersOf values found) = .error why := hwhy
        simp [hread, Except.mapError, bind, Except.bind]

theorem load_of_error {f : LoadFault} (h : gather start path given = .error f) :
    load start path given = .error f := by
  rw [load_eq, h]
  rfl

theorem load_of_found {values : List (Text × Value)} {found : List (List (Text × Value))}
    (hvalues : gather start path given = .ok values) (hfound : search start values = .ok found) :
    load start path given = (read (layersOf values found)).mapError .refused := by
  simp [load_eq, hvalues, hfound, bind, Except.bind, Except.mapError]

theorem load_of_lost {values : List (Text × Value)} {why : SearchFault}
    (hvalues : gather start path given = .ok values) (hfound : search start values = .error why) :
    load start path given = .error (.lost why) := by
  simp [load_eq, hvalues, hfound, bind, Except.bind, Except.mapError]

theorem load_hazard {f : LoadFault} (h : load start path given = .error f)
    (hf : ¬ f.IsComplaint) : Hazard start path given := by
  cases hvalues : gather start path given with
  | error e =>
    rw [load_of_error hvalues] at h
    cases h
    exact gather_hazard hvalues hf
  | ok values =>
    cases hfound : search start values with
    | error why => exact .search hvalues hfound
    | ok found =>
      rw [load_of_found hvalues hfound] at h
      cases hread : read (layersOf values found) with
      | ok s =>
        rw [hread] at h
        cases h
      | error e =>
        rw [hread] at h
        cases h
        obtain ⟨v, t, hv, ht, hhuge⟩ := (read_hugeWait_iff _).mp ⟨e, hread, hf⟩
        exact .wait hvalues hfound hv ht hhuge

theorem Hazard.load (h : Hazard start path given) :
    ∃ f, load start path given = .error f ∧ ¬ f.IsComplaint := by
  cases h with
  | file hpath h =>
    subst hpath
    obtain ⟨f, hgather, hf⟩ := gather_of_unjudged given h
    exact ⟨f, load_of_error hgather, hf⟩
  | name hpath hfile h =>
    subst hpath
    exact ⟨.badName, load_of_error (gather_of_unnamed hfile h), not_isComplaint_badName⟩
  | @search values why hvalues h =>
    refine ⟨.lost why, load_of_lost hvalues h, ?_⟩
    simp [LoadFault.IsComplaint, LoadFault.fileMessage?]
  | wait hvalues hfound hv ht h =>
    obtain ⟨f, hread, hf⟩ := (read_hugeWait_iff _).mpr ⟨_, _, hv, ht, h⟩
    refine ⟨.refused f, ?_, hf⟩
    rw [load_of_found hvalues hfound, hread]
    rfl

/-- **Loading settles every configuration without a hazard, and no other.** It gives settings that
are within their ranges, or it finds fault with the configuration, if and only if there is no
hazard. -/
theorem settled_iff (start : Surroundings) (path : Option Text) (given : List (Text × Value)) :
    ((∃ s, load start path given = .ok s ∧ s.Valid) ∨
      ∃ f, load start path given = .error f ∧ f.IsComplaint) ↔ ¬ Hazard start path given := by
  constructor
  · intro hsettled hhazard
    obtain ⟨f, hload, hf⟩ := hhazard.load
    obtain ⟨s, hs, -⟩ | ⟨g, hg, hcomplaint⟩ := hsettled
    · rw [hload] at hs
      cases hs
    · rw [hload] at hg
      cases hg
      exact hf hcomplaint
  · intro hsafe
    cases hload : load start path given with
    | ok s => exact .inl ⟨s, rfl, load_valid hload⟩
    | error f =>
      refine .inr ⟨f, rfl, ?_⟩
      by_contra hf
      exact hsafe (load_hazard hload hf)

end

/-- A file that is no text is not found fault with. -/
theorem not_always_settled : ¬ ∀ (start : Surroundings) (path : Option Text)
    (given : List (Text × Value)), (∃ s, load start path given = .ok s ∧ s.Valid) ∨
      ∃ f, load start path given = .error f ∧ f.IsComplaint := by
  intro hall
  let start : Surroundings := { folder := ⟨[(⟨0, ["m.yaml"]⟩, [0xff, 0x41])]⟩ }
  have hread : start.folder.read (.ofText "m.yaml") = .ok [0xff, 0x41] := rfl
  have hhazard : Hazard start (some "m.yaml") [] := .file rfl (.notText hread (by decide))
  obtain ⟨f, hload, hf⟩ := hhazard.load
  obtain ⟨s, hs, -⟩ | ⟨g, hg, hcomplaint⟩ := hall start (some "m.yaml") []
  · rw [hload] at hs
    cases hs
  · rw [hload] at hg
    cases hg
    exact hf hcomplaint

end FleetProbe.Settings
