import DbRoute.Proofs.Precedence

/-!
# Layers in any grouping

To lay one set of properties over another is associative, and not only in the
values: a key keeps the place that it has below, and a new one comes behind. So
what a row of layers makes up depends on their order alone and not on which of
them are laid together first. The empty layer adds nothing, above or below, and
no layer adds anything to itself.
-/

namespace DbRoute

namespace Properties

variable {p q : Properties} {key : String}

theorem overlay_self (p : Properties) : p.overlay p = p := by
  apply ext_get?
  · rw [keys_overlay, List.filter_eq_nil_iff.mpr, List.append_nil]
    intro name hname
    simpa using hname
  · intro name
    rw [get?_overlay, Option.or_self]

theorem overlay_overlay_self (p q : Properties) : (p.overlay q).overlay q = p.overlay q := by
  rw [overlay_assoc, overlay_self]

/-- The upper layer counts where it has the key. -/
theorem get?_overlay_eq_ite (p q : Properties) (key : String) :
    (p.overlay q).get? key = if key ∈ q.keys then q.get? key else p.get? key := by
  rw [get?_overlay]
  by_cases hkey : key ∈ q.keys
  · have hsome : q.get? key ≠ none := mt get?_eq_none_iff.mp (not_not.mpr hkey)
    obtain ⟨value, hvalue⟩ := Option.ne_none_iff_exists'.mp hsome
    rw [if_pos hkey, hvalue, Option.some_or]
  · rw [if_neg hkey, get?_eq_none_iff.mpr hkey, Option.none_or]

/-- Layers that are laid over one another, some of them together before others. -/
inductive Grouping where
  | empty
  | one (layer : Properties)
  | upon (lower upper : Grouping)

namespace Grouping

def merged : Grouping → Properties
  | empty => ∅
  | one layer => layer
  | upon lower upper => lower.merged.overlay upper.merged

/-- The layers from below. -/
def layers : Grouping → List Properties
  | empty => []
  | one layer => [layer]
  | upon lower upper => lower.layers ++ upper.layers

theorem merged_eq_stack (g : Grouping) : g.merged = stack g.layers := by
  induction g with
  | empty => rfl
  | one layer => exact (empty_overlay layer).symm
  | upon lower upper ihLower ihUpper => rw [merged, layers, stack_append, ihLower, ihUpper]

end Grouping

end Properties

open Properties

namespace Resolution

variable {load : Lookup} {layer overrides : Properties} {g : Grouping}

theorem loadAll_eq_merged {names : String} (h : Loads load (configurationNames names) g.layers) :
    loadAll load names = .ok g.merged :=
  loadAll_eq_ok.mpr ⟨g.layers, h, g.merged_eq_stack.symm⟩

theorem merge_eq_merged {configurations : List Properties}
    (hloads : Loads load (namesInForce layer overrides) configurations)
    (hlayers : g.layers = configurations ++ [layer, overrides.erase Key.hostCount]) :
    merge load layer overrides = .ok g.merged := by
  refine merge_eq_ok.mpr ⟨configurations, hloads, ?_⟩
  rw [g.merged_eq_stack, hlayers, stack_append, stack_cons, stack_cons, overlay_assoc]
  rfl

end Resolution

namespace Properties

/-- To lay properties over others writes the values of the upper layer, in the places of the
lower where it has them and behind it where it has not, and no key comes twice. This is
associative, places included, with the empty layer as the neutral one on either side, and
neither a layer over itself nor a layer laid over twice makes a difference. So all groupings
of the same layers make up the same, be it of the configurations in a list or of all layers
of a resolution. -/
theorem overlay_laws :
    (∀ p q : Properties,
      (∀ key, (p.overlay q).get? key = if key ∈ q.keys then q.get? key else p.get? key) ∧
      (p.overlay q).keys = p.keys ++ q.keys.filter (· ∉ p.keys) ∧ (p.overlay q).keys.Nodup) ∧
    (∀ p q r : Properties, (p.overlay q).overlay r = p.overlay (q.overlay r)) ∧
    (∀ p : Properties, (∅ : Properties).overlay p = p ∧ p.overlay ∅ = p ∧ p.overlay p = p) ∧
    (∀ p q : Properties, (p.overlay q).overlay q = p.overlay q) ∧
    (∀ g h : Grouping, g.layers = h.layers → g.merged = h.merged) ∧
    (∀ (load : Lookup) (names : String) (g : Grouping),
      Resolution.Loads load (Resolution.configurationNames names) g.layers →
        Resolution.loadAll load names = .ok g.merged) ∧
    ∀ (load : Lookup) (layer overrides : Properties) (configurations : List Properties)
        (g : Grouping),
      Resolution.Loads load (Resolution.namesInForce layer overrides) configurations →
      g.layers = configurations ++ [layer, overrides.erase Key.hostCount] →
        Resolution.merge load layer overrides = .ok g.merged := by
  refine ⟨fun p q => ⟨get?_overlay_eq_ite p q, keys_overlay p q, nodup_keys _⟩, overlay_assoc,
    fun p => ⟨empty_overlay p, rfl, overlay_self p⟩, overlay_overlay_self, ?_,
    fun _ _ _ => Resolution.loadAll_eq_merged,
    fun _ _ _ _ _ => Resolution.merge_eq_merged⟩
  intro g h hlayers
  rw [g.merged_eq_stack, h.merged_eq_stack, hlayers]

/-- The lowest over nothing, and on it the other two together. -/
def groupedAbove (lower middle upper : Properties) : Grouping :=
  .upon (.upon .empty (.one lower)) (.upon (.one middle) (.one upper))

/-- Three configurations, each of which has a key of each of the others. -/
def overlapping : Lookup :=
  Loader.lookUp
    [("a", ofList [("x", "1"), ("y", "1")]), ("b", ofList [("y", "2"), ("z", "2")]),
      ("c", ofList [("z", "3"), ("x", "3")])]

/-- A list of three configurations, and one configuration with what a URL and a caller say. -/
theorem overlay_laws_overlapping :
    Resolution.loadAll overlapping "a,b,c" = .ok (ofList [("x", "3"), ("y", "2"), ("z", "3")]) ∧
    Resolution.merge overlapping (ofList [(Key.configurations, "a"), ("z", "0")])
        (ofList [(Key.hostCount, "7"), ("z", "9"), ("y", "9")]) =
      .ok (ofList [("x", "1"), ("y", "9"), (Key.configurations, "a"), ("z", "9")]) := by
  obtain ⟨_, _, _, _, _, hload, hmerge⟩ := overlay_laws
  constructor
  · have hnames : Resolution.configurationNames "a,b,c" = ["a", "b", "c"] := by decide +kernel
    have hloads : Resolution.Loads overlapping ["a", "b", "c"]
        [ofList [("x", "1"), ("y", "1")], ofList [("y", "2"), ("z", "2")],
          ofList [("z", "3"), ("x", "3")]] :=
      .cons rfl (.cons rfl (.cons rfl .nil))
    exact hload _ _ (groupedAbove _ _ _) (hnames ▸ hloads)
  · have hnames : Resolution.namesInForce (ofList [(Key.configurations, "a"), ("z", "0")])
        (ofList [(Key.hostCount, "7"), ("z", "9"), ("y", "9")]) = ["a"] := by decide +kernel
    have hloads : Resolution.Loads overlapping ["a"] [ofList [("x", "1"), ("y", "1")]] :=
      .cons rfl .nil
    exact hmerge _ _ _ _ (groupedAbove _ _ _) (hnames ▸ hloads) rfl

end Properties

end DbRoute
