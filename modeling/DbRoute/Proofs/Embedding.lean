import DbRoute.Proofs.ConfigurationList
import DbRoute.Proofs.Routing
import DbRoute.Proofs.Text.Blank

/-!
# The configuration of an application

Inside an application that is known, its configuration is to be loaded behind
those that are named already. What resolution does to that end is to write a
longer list to the URL's layer. That brings the configuration into force with
two exceptions: a list of the caller's counts before the one that was made
longer, and a quotation mark that the URL's list leaves open takes the new
name in.
-/

namespace DbRoute

open Properties Outcome

namespace Resolution

variable {layer overrides : Properties} {names? : Option String} {list name : String}

/-! ## Lists of names -/

/-- The names with one more behind them, unless they have it already. -/
def withName (names : List String) (name : String) : List String :=
  if name ∈ names then names else names ++ [name]

theorem mem_withName (names : List String) (name : String) : name ∈ withName names name := by
  unfold withName
  split
  · assumption
  · exact List.mem_append_right _ List.mem_cons_self

/-- A name that reads the same in every list: no mark, no comma and no blank is in it. -/
structure IsWord (name : String) : Prop where
  nonempty : name.toList ≠ []
  free : Text.FreeOf ['"', '\'', ','] name.toList
  solid : ∀ c ∈ name.toList, Text.isBlank c = false

theorem isWord_configuration (e : Embedding) : IsWord e.configuration := by
  cases e
  exact ⟨by decide, by decide, by simp [Embedding.configuration, Text.isBlank]⟩

theorem IsWord.mem_configurationNames (h : IsWord name) :
    name ∈ configurationNames list ↔ name.toList ∈ Text.trimmedTokens ',' list.toList := by
  have hsome : (!name.toList.isEmpty) = true := by simpa using h.nonempty
  constructor
  · intro hmem
    obtain ⟨token, htoken, rfl⟩ := List.mem_map.mp hmem
    rw [String.toList_ofList]
    exact (List.mem_filter.mp htoken).1
  · intro hmem
    exact List.mem_map.mpr ⟨_, List.mem_filter.mpr ⟨hmem, hsome⟩, String.ofList_toList⟩

theorem IsWord.pieces (h : IsWord name) :
    ((Text.piecesFrom none ',' name.toList).map Text.trim).filter (!·.isEmpty) =
      [name.toList] := by
  have hsome : (!name.toList.isEmpty) = true := by simpa using h.nonempty
  rw [Text.piecesFrom_of_uncut (Text.Sealed.of_free h.free).uncut, List.map_singleton,
    Text.trim_eq_self_of_forall h.solid, List.filter_singleton, hsome, cond_true]

theorem IsWord.configurationNames_self (h : IsWord name) : configurationNames name = [name] := by
  rw [configurationNames_eq, h.pieces, List.map_singleton, String.ofList_toList]

/-- Behind a list that closes its marks, a word is one more name. -/
theorem IsWord.configurationNames_append (h : IsWord name)
    (hclosed : Text.markAfter none list.toList = none) :
    configurationNames (list ++ "," ++ name) = configurationNames list ++ [name] := by
  rw [Resolution.configurationNames_append hclosed, h.configurationNames_self]

/-- Behind a list with an open mark, a word is no name: it is within the last one. -/
theorem IsWord.not_mem_configurationNames_append {mark : Char} (h : IsWord name)
    (hopen : Text.markAfter none list.toList = some mark)
    (hnot : name ∉ configurationNames list) :
    name ∉ configurationNames (list ++ "," ++ name) := by
  have hquote : Text.isQuote mark = true :=
    Text.isQuote_of_markAfter (fun _ hm => absurd hm (Option.not_mem_none _)) hopen
  have hmark : mark ∉ ',' :: name.toList := by
    rcases Text.isQuote_iff.mp hquote with rfl | rfl
    · exact List.not_mem_cons_of_ne_of_not_mem (by decide) (h.free.not_mem (by decide))
    · exact List.not_mem_cons_of_ne_of_not_mem (by decide) (h.free.not_mem (by decide))
  obtain ⟨ps, p, hlist, hall⟩ := Text.piecesFrom_append_of_open (d := ',') hopen hmark
  rw [configurationNames_eq, hlist] at hnot
  rw [configurationNames_eq, toList_append_name, hall]
  simp only [List.map_append, List.filter_append, List.mem_append, not_or] at hnot ⊢
  refine ⟨hnot.1, ?_⟩
  -- The last name has the comma in it that was put before the word.
  intro hmem
  obtain ⟨token, htoken, hname⟩ := List.mem_map.mp hmem
  have htrim : token = Text.trim (p ++ ',' :: name.toList) :=
    List.mem_singleton.mp (List.mem_filter.mp htoken).1
  have hcomma : ',' ∈ token := by
    rw [htrim]
    exact Text.mem_trim (by decide) (List.mem_append_right _ List.mem_cons_self)
  have hfree : ',' ∉ name.toList := h.free.not_mem (by decide)
  rw [← hname, String.toList_ofList] at hfree
  exact hfree hcomma

theorem configurationNames_of_blank (h : Text.allBlank list.toList = true) :
    configurationNames list = [] := by
  have htrim : Text.trim list.toList = [] := by
    rw [Text.trim, Text.trimStart_of_allBlank h]
    rfl
  rw [configurationNames_eq, Text.piecesFrom_of_uncut (Text.Sealed.of_allBlank rfl h).uncut,
    List.map_singleton, htrim]
  rfl

/-! ## The list that is made longer -/

/-- The names of a list, if there is one. -/
def namesOf (names? : Option String) : List String :=
  (names?.map configurationNames).getD []

/-- The list with the name added, or as it is if it has the name. -/
def listWith (names? : Option String) (name : String) : Option String :=
  (withConfiguration names? name).or names?

theorem IsWord.namesOf_listWith (h : IsWord name)
    (htakes : name ∈ namesOf names? ∨
      ∀ list ∈ names?, Text.markAfter none list.toList = none) :
    namesOf (listWith names? name) = withName (namesOf names?) name := by
  cases names? with
  | none => exact h.configurationNames_self
  | some list =>
      show namesOf (listWith (some list) name) = withName (configurationNames list) name
      unfold listWith withConfiguration withName
      simp only [h.mem_configurationNames]
      split
      · rfl
      · next hnot =>
        have hclosed : Text.markAfter none list.toList = none := by
          rcases htakes with hmem | hclosed
          · exact absurd (h.mem_configurationNames.mp hmem) hnot
          · exact hclosed list rfl
        split
        · next hblank =>
          rw [configurationNames_of_blank hblank]
          exact h.configurationNames_self
        · exact h.configurationNames_append hclosed

theorem IsWord.not_mem_namesOf_listWith {mark : Char} (h : IsWord name)
    (hopen : Text.markAfter none list.toList = some mark)
    (hnot : name ∉ configurationNames list) : name ∉ namesOf (listWith (some list) name) := by
  have htokens : name.toList ∉ Text.trimmedTokens ',' list.toList :=
    mt h.mem_configurationNames.mpr hnot
  have hblank : ¬Text.allBlank list.toList = true := by
    intro hblank
    have hsealed : Text.Sealed ',' list.toList := .of_allBlank rfl hblank
    rw [hsealed.closed] at hopen
    cases hopen
  rw [listWith, withConfiguration, if_neg htokens, if_neg hblank]
  exact h.not_mem_configurationNames_append hopen hnot

/-! ## Which names are in force -/

/-- What it takes to bring one more name into force: it is there already, or
the list that counts is the URL's and closes its marks. -/
def TakesName (layer overrides : Properties) (name : String) : Prop :=
  name ∈ namesInForce layer overrides ∨
    overrides.get? Key.configurations = none ∧
      ∀ list ∈ layer.get? Key.configurations, Text.markAfter none list.toList = none

/-- A list of the caller's counts alone. -/
theorem namesInForce_of_overrides (h : overrides.get? Key.configurations ≠ none)
    (layer other : Properties) : namesInForce layer overrides = namesInForce other overrides := by
  obtain ⟨list, hlist⟩ := Option.ne_none_iff_exists'.mp h
  rw [namesInForce, namesInForce, effectiveNames?, effectiveNames?, hlist]
  rfl

theorem namesInForce_of_layer (h : overrides.get? Key.configurations = none) :
    namesInForce layer overrides = namesOf (layer.get? Key.configurations) := by
  rw [namesInForce, effectiveNames?, h]
  rfl

section

variable {env : Environment} {e : Embedding}
  (hauto : steering? layer overrides Key.autoEmbedding = none)
  (he : Embedding.detect? env = some e)

include hauto he

theorem get?_configurations_addEmbedding :
    (addEmbedding env layer overrides).get? Key.configurations =
      (withConfiguration (steering? layer overrides Key.configurations) e.configuration).or
        (layer.get? Key.configurations) := by
  have henabled : embeddingEnabled layer overrides = true := by
    rw [embeddingEnabled, hauto]
    decide
  rw [addEmbedding, if_pos henabled, he]
  dsimp only
  split
  · next names hnames =>
    rw [get?_set, if_pos rfl, hnames]
    rfl
  · next hnone =>
    rw [hnone]
    rfl

theorem namesInForce_addEmbedding_of_layer (hnone : overrides.get? Key.configurations = none) :
    namesInForce (addEmbedding env layer overrides) overrides =
      namesOf (listWith (layer.get? Key.configurations) e.configuration) := by
  have hlist : steering? layer overrides Key.configurations = layer.get? Key.configurations := by
    rw [steering?, hnone]
    cases layer.get? Key.configurations <;> rfl
  rw [namesInForce_of_layer hnone, get?_configurations_addEmbedding hauto he, hlist, listWith]

theorem namesInForce_addEmbedding (h : TakesName layer overrides e.configuration) :
    namesInForce (addEmbedding env layer overrides) overrides =
      withName (namesInForce layer overrides) e.configuration := by
  by_cases hnone : overrides.get? Key.configurations = none
  · rw [TakesName, namesInForce_of_layer hnone] at h
    rw [namesInForce_addEmbedding_of_layer hauto he hnone, namesInForce_of_layer hnone]
    exact (isWord_configuration e).namesOf_listWith (h.imp_right And.right)
  · have hmem : e.configuration ∈ namesInForce layer overrides :=
      h.resolve_right fun hlayer => hnone hlayer.1
    rw [withName, if_pos hmem]
    exact namesInForce_of_overrides hnone _ _

theorem not_mem_namesInForce_addEmbedding (h : ¬TakesName layer overrides e.configuration) :
    e.configuration ∉ namesInForce (addEmbedding env layer overrides) overrides := by
  obtain ⟨hnot, hlost⟩ := not_or.mp h
  by_cases hnone : overrides.get? Key.configurations = none
  · have hopen : ∃ list ∈ layer.get? Key.configurations,
        Text.markAfter none list.toList ≠ none := by
      simpa [hnone] using hlost
    obtain ⟨list, hlist, hmark⟩ := hopen
    obtain ⟨mark, hmark⟩ := Option.ne_none_iff_exists'.mp hmark
    rw [namesInForce_of_layer hnone, Option.mem_def.mp hlist] at hnot
    rw [namesInForce_addEmbedding_of_layer hauto he hnone, Option.mem_def.mp hlist]
    exact (isWord_configuration e).not_mem_namesOf_listWith hmark hnot
  · rwa [namesInForce_of_overrides hnone _ layer]

end

end Resolution

namespace Context

open Resolution

/-- Inside an application, without a transform and with nothing said about it,
the configuration of the application comes into force behind the names that are
there already if the list of them is the URL's and closes its marks, or if it
is among them; otherwise it does not come into force. A list of the caller's is
left as it is. What is in force is what a resolution merges, and all keys of
the application's configuration are in the result if it is in force. -/
theorem embedding_in_force (c : Context) (url : String) (overrides : Properties) (u : UrlParts)
    (e : Embedding) (hread : UrlParts.read url = .ok (some u))
    (htransform : u.parameters.get? Key.transform = none ∧ overrides.get? Key.transform = none)
    (hauto : u.parameters.get? Key.autoEmbedding = none ∧
      overrides.get? Key.autoEmbedding = none)
    (he : Embedding.detect? c.environment = some e) :
    ∃ layer, c.urlLayer u overrides = .ok layer ∧
      (TakesName u.parameters overrides e.configuration →
        namesInForce layer overrides =
          withName (namesInForce u.parameters overrides) e.configuration) ∧
      (¬TakesName u.parameters overrides e.configuration →
        e.configuration ∉ namesInForce layer overrides) ∧
      (overrides.get? Key.configurations ≠ none →
        namesInForce layer overrides = namesInForce u.parameters overrides) ∧
      ∀ r, c.resolve url overrides = .ok (some r) →
        (∃ configurations, Loads c.load (namesInForce layer overrides) configurations ∧
          r = ((stack configurations).overlay layer).overlay
            (overrides.erase Key.hostCount)) ∧
        (e.configuration ∈ namesInForce layer overrides →
          ∃ p, c.load e.configuration = .ok p ∧ p.keys ⊆ r.keys) := by
  have hsteering : steering? u.properties overrides Key.autoEmbedding = none := by
    rw [steering?, hauto.2, u.get?_properties_eq_parameters (by decide) (by decide), hauto.1]
    rfl
  have hlist : u.properties.get? Key.configurations = u.parameters.get? Key.configurations :=
    u.get?_properties_eq_parameters (by decide) (by decide)
  have hnames : namesInForce u.properties overrides = namesInForce u.parameters overrides := by
    rw [namesInForce, namesInForce, effectiveNames?, effectiveNames?, hlist]
  have htakes : TakesName u.properties overrides e.configuration ↔
      TakesName u.parameters overrides e.configuration := by
    rw [TakesName, TakesName, hnames, hlist]
  have hlayer := urlLayer_of_no_transform (c := c) htransform.1 htransform.2
  refine ⟨_, hlayer, ?_, ?_, ?_, ?_⟩
  · intro h
    rw [namesInForce_addEmbedding hsteering he (htakes.mpr h), hnames]
  · intro h
    exact not_mem_namesInForce_addEmbedding hsteering he (mt htakes.mp h)
  · intro h
    exact namesInForce_of_overrides h _ _
  · intro r hr
    obtain ⟨layer, hlayer', hmerge⟩ := (resolve_eq_some_of_read hread).mp hr
    obtain rfl := Except.ok.inj (hlayer.symm.trans hlayer')
    obtain ⟨configurations, hloads, hr⟩ := merge_eq_ok.mp hmerge
    exact ⟨⟨configurations, hloads, hr.symm⟩, exists_load_of_mem_namesInForce hmerge⟩

/-- The bundled configurations inside ColdFusion. -/
def insideColdFusion : Context where
  load := Loader.load .bundled
  environment := .ofList [(Embedding.variableName, "coldfusion")]

/-- A configuration of the URL's comes first, and that of the application behind it. -/
theorem embedding_in_force_behind :
    ∃ layer r, namesInForce layer ∅ = ["maxPerformance", "coldFusion"] ∧
      insideColdFusion.resolve "mysql://h/db?useConfigs=maxPerformance" ∅ = .ok (some r) ∧
      "useDynamicCharsetInfo" ∈ r.keys := by
  have hread : UrlParts.read "mysql://h/db?useConfigs=maxPerformance" = .ok (some
      ⟨.plain, [⟨"h", "3306", none⟩], some "db",
        ofList [(Key.configurations, "maxPerformance")]⟩) := by decide +kernel
  have hresolve : insideColdFusion.resolve "mysql://h/db?useConfigs=maxPerformance" ∅ =
      .ok (some (ofList (Bundled.maxPerformance ++ [("useDynamicCharsetInfo", "false"),
        ("autoReconnect", "true"), (Key.configurations, "maxPerformance,coldFusion"),
        ("host.1", "h"), ("port.1", "3306"), (Key.hostCount, "1"), (Key.host, "h"),
        (Key.port, "3306"), (Key.database, "db")]))) := by decide +kernel
  obtain ⟨layer, _, hnames, _, _, hresult⟩ := embedding_in_force insideColdFusion _ ∅ _ .coldFusion
    hread ⟨by decide +kernel, rfl⟩ ⟨by decide +kernel, rfl⟩ (by decide)
  have hforce := hnames (Or.inr ⟨rfl, by decide +kernel⟩)
  obtain ⟨_, hkeys⟩ := hresult _ hresolve
  obtain ⟨p, hload, hsub⟩ := hkeys (hforce ▸ mem_withName _ _)
  obtain rfl : ofList Bundled.coldFusion = p := Except.ok.inj (Eq.trans rfl hload)
  exact ⟨layer, _, hforce.trans (by decide +kernel), hresolve, hsub (by decide)⟩

/-- With a list of the caller's, the application is known and its configuration
there, but what it says is not in the result. -/
theorem embedding_lost_behind_overrides :
    ∃ u p r, UrlParts.read "mysql://h/db" = .ok (some u) ∧ u.parameters = ∅ ∧
      Embedding.detect? insideColdFusion.environment = some .coldFusion ∧
      insideColdFusion.load Embedding.coldFusion.configuration = .ok p ∧
      insideColdFusion.resolve "mysql://h/db" (ofList [(Key.configurations, "maxPerformance")]) =
        .ok (some r) ∧
      "useDynamicCharsetInfo" ∈ p.keys ∧ "useDynamicCharsetInfo" ∉ r.keys :=
  ⟨⟨.plain, [⟨"h", "3306", none⟩], some "db", ∅⟩, ofList Bundled.coldFusion,
    ofList (Bundled.maxPerformance ++ [("host.1", "h"), ("port.1", "3306"), (Key.hostCount, "1"),
      (Key.host, "h"), (Key.port, "3306"), (Key.database, "db"),
      (Key.configurations, "maxPerformance")]),
    by decide +kernel, rfl, by decide, rfl, by decide +kernel, by decide, by decide⟩

end Context

end DbRoute
