import DbRoute.Proofs.Precedence
import DbRoute.Proofs.Text.Quotation

/-!
# Lists of configurations

A list of configurations is loaded from left to right, each configuration over
those before it, and the first that cannot be loaded ends it. Two lists with a
comma between them are one list, if the first has closed its quotation marks,
so that loading them together is loading one and then the other, be it that
they end well or not.
-/

namespace DbRoute

open Properties Outcome

namespace Resolution

variable {load : Lookup} {list front back name names : String} {fault : Fault}

/-! ## The names in a list -/

/-- The names are what stands between the commas outside quotation, without the empty ones. -/
theorem configurationNames_eq (list : String) :
    configurationNames list =
      (((Text.piecesFrom none ',' list.toList).map Text.trim).filter (!·.isEmpty)).map
        String.ofList :=
  congrArg (List.map String.ofList) (Text.filter_trim_dropEmptyLast _)

theorem toList_append_name (list name : String) :
    (list ++ "," ++ name).toList = list.toList ++ ',' :: name.toList :=
  Text.toList_joined rfl list name

/-- Behind a list that closes its marks, another list adds its names. -/
theorem configurationNames_append (h : Text.markAfter none front.toList = none)
    (back : String) :
    configurationNames (front ++ "," ++ back) =
      configurationNames front ++ configurationNames back := by
  rw [configurationNames_eq, configurationNames_eq, configurationNames_eq, toList_append_name,
    Text.piecesFrom_append_of_closed (by decide) h, List.map_append, List.filter_append,
    List.map_append]

/-! ## Loading a list -/

theorem loadAll_append (h : Text.markAfter none front.toList = none) (back : String) :
    loadAll load (front ++ "," ++ back) =
      loadAll load front >>= fun p => (loadAll load back).map p.overlay := by
  rw [loadAll_eq_mapM, loadAll_eq_mapM, loadAll_eq_mapM, configurationNames_append h,
    List.mapM_append]
  cases (configurationNames front).mapM (loadOne load) with
  | error fault => rfl
  | ok first =>
      cases (configurationNames back).mapM (loadOne load) with
      | error fault => rfl
      | ok second => exact congrArg Except.ok (stack_append first second)

theorem exists_loadAll_iff :
    (∃ p, loadAll load names = .ok p) ↔
      ∀ name ∈ configurationNames names, ∃ p, load name = .ok p := by
  simp only [loadAll_eq_ok]
  constructor
  · rintro ⟨_, configurations, hloads, _⟩ name hname
    obtain ⟨p, _, hp⟩ := hloads.exists_of_mem hname
    exact ⟨p, hp⟩
  · intro h
    choose! configuration hload using h
    have hloads : Loads load (configurationNames names)
        ((configurationNames names).map configuration) :=
      List.forall₂_map_right_iff.mpr (List.forall₂_same.mpr hload)
    exact ⟨_, _, hloads, rfl⟩

/-! ## The first failure -/

/-- The loader fails to load the configuration. -/
def Fails (load : Lookup) (name : String) : Prop := ∃ error, load name = .error error

/-- What is complained about if a configuration is not there or cannot be loaded. -/
def complaint (name : String) : LoadError → Fault
  | .notFound _ => .missingConfiguration name
  | error => .unloadableConfiguration name error

/-- What a loader says of a configuration that is there and cannot be loaded. -/
def cause? : LoadError → Option String
  | .notFound _ => none
  | error => some error.text

theorem loadOne_eq_error :
    loadOne load name = .error fault ↔
      ∃ error, load name = .error error ∧ fault = complaint name error := by
  have hloadOne : loadOne load name = (load name).mapError (complaint name) := rfl
  rw [hloadOne]
  cases load name with
  | ok p =>
      constructor
      · rintro ⟨⟩
      · rintro ⟨_, ⟨⟩, _⟩
  | error error =>
      constructor
      · rintro ⟨⟩
        exact ⟨error, rfl, rfl⟩
      · rintro ⟨_, ⟨⟩, rfl⟩
        rfl

theorem loadAll_eq_error :
    loadAll load names = .error fault ↔
      ∃ name error, First (Fails load) (configurationNames names) name ∧
        load name = .error error ∧ fault = complaint name error := by
  have hfails : ∀ name, (∃ fault, loadOne load name = .error fault) ↔ Fails load name := by
    intro name
    simp only [loadOne_eq_error]
    exact ⟨fun ⟨_, error, herror, _⟩ => ⟨error, herror⟩, fun ⟨error, herror⟩ => ⟨_, error, herror, rfl⟩⟩
  rw [loadAll_eq_mapM, map_eq_error, mapM_eq_error]
  constructor
  · rintro ⟨name, hfirst, hname⟩
    obtain ⟨error, herror, hfault⟩ := loadOne_eq_error.mp hname
    exact ⟨name, error, hfirst.congr hfails, herror, hfault⟩
  · rintro ⟨name, error, hfirst, herror, hfault⟩
    exact ⟨name, hfirst.congr fun name => (hfails name).symm,
      loadOne_eq_error.mpr ⟨error, herror, hfault⟩⟩

theorem report_complaint (name : String) (error : LoadError) :
    (complaint name error).report.code = .invalidAttribute ∧
    (complaint name error).report.key = some Key.configurations ∧
    (complaint name error).report.source = cause? error := by
  cases error <;> exact ⟨rfl, rfl, rfl⟩

/-- Whatever answers for the configurations: two lists with a comma between them,
the first of which leaves no mark open, fail to load as the first does, or else as
the second does, or else they make up what the second holds, laid over what the
first holds, the order of the keys included. A list can be loaded if and only if
each of its names can, and then it is the stack of them. Otherwise there is no
result at all but a complaint about the first of its names that cannot be loaded:
an attribute that is not valid, the list of configurations, where the configuration
is missing, with no source, if nobody knows it, and else cannot be loaded, with
what its loader says as the source. -/
theorem loadAll_composes (load : Lookup) :
    (∀ front back : String, Text.markAfter none front.toList = none →
      loadAll load (front ++ "," ++ back) =
        loadAll load front >>= fun p => (loadAll load back).map p.overlay) ∧
    (∀ names, (∃ p, loadAll load names = .ok p) ↔
      ∀ name ∈ configurationNames names, ∃ p, load name = .ok p) ∧
    (∀ names p, loadAll load names = .ok p ↔
      ∃ configurations, Loads load (configurationNames names) configurations ∧
        stack configurations = p) ∧
    (∀ names fault, loadAll load names = .error fault ↔
      ∃ name error, First (Fails load) (configurationNames names) name ∧
        load name = .error error ∧ fault = complaint name error) ∧
    ∀ name error, (complaint name error).report.code = .invalidAttribute ∧
      (complaint name error).report.key = some Key.configurations ∧
      (complaint name error).report.source = cause? error :=
  ⟨fun _ back h => loadAll_append h back, fun _ => exists_loadAll_iff, fun _ _ => loadAll_eq_ok,
    fun _ _ => loadAll_eq_error, report_complaint⟩

/-- Two configurations, one of them with a comma in its name, and one that cannot be read. -/
def mixedConfigurations : Lookup := fun name =>
  if name = "broken" then .error (.malformed name (scalarDefect "k"))
  else
    Loader.lookUp
      [("base", ofList [("a", "1"), ("b", "1")]), ("'x,y'", ofList [("c", "2"), ("a", "2")])] name

/-- A name that comes twice, an empty one between, and the first of two failures. -/
theorem loadAll_composes_mixed :
    loadAll mixedConfigurations ("base, 'x,y' ," ++ "," ++ "base,") =
        .ok (ofList [("a", "1"), ("b", "1"), ("c", "2")]) ∧
      loadAll mixedConfigurations ("base,none" ++ "," ++ "broken") =
        .error (.missingConfiguration "none") := by
  obtain ⟨hcompose, _⟩ := loadAll_composes mixedConfigurations
  constructor
  · rw [hcompose _ _ (by decide +kernel)]
    decide +kernel
  · rw [hcompose _ _ (by decide +kernel)]
    decide +kernel

/-- A mark that the first list leaves open takes the comma and the second list in. -/
example : configurationNames ("'base" ++ "," ++ "fast") = ["'base,fast"] := by decide +kernel

end Resolution

end DbRoute
