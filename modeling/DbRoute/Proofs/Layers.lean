import DbRoute.Properties
import Mathlib.Data.List.Induction
import Mathlib.Data.List.Nodup

/-!
# Layers of properties

Writing a list of pairs over a set of properties is the one loop behind every
merge. Of a key the last pair counts, or else what was there; the keys that
were there keep their places, and the new ones follow in the order of their
first appearance. A stack of layers is the list of all their pairs.
-/

namespace DbRoute.Properties

variable {p q : Properties} {key : String} {pairs : List Pair}

theorem nodup_keys (p : Properties) : p.keys.Nodup := p.nodup

theorem lookup_eq_none_iff : pairs.lookup key = none ↔ key ∉ Pairs.keys pairs := by
  rw [List.lookup_eq_none_iff, Pairs.keys, List.mem_map]
  constructor
  · rintro h ⟨pair, hpair, rfl⟩
    exact absurd (h pair hpair) (by simp)
  · intro h pair hpair
    exact bne_iff_ne.mpr fun e => h ⟨pair, hpair, e.symm⟩

theorem get?_eq_none_iff : p.get? key = none ↔ key ∉ p.keys := lookup_eq_none_iff

/-- Distinct keys and their values are all that a set of properties holds. -/
theorem pairs_eq_map (p : Properties) :
    p.pairs = p.keys.map fun key => (key, (p.get? key).getD "") := by
  suffices h : ∀ pairs : List Pair, (Pairs.keys pairs).Nodup →
      pairs = (Pairs.keys pairs).map fun key => (key, (pairs.lookup key).getD "") from
    h p.pairs p.nodup
  intro pairs hnd
  induction pairs with
  | nil => rfl
  | cons pair pairs ih =>
      obtain ⟨hm, hnd⟩ := List.nodup_cons.mp hnd
      rw [Pairs.keys, List.map_cons, List.map_cons, Pairs.lookup_cons_eq, if_pos rfl,
        Option.getD_some]
      refine congrArg (pair :: ·) ((ih hnd).trans (List.map_congr_left fun key hkey => ?_))
      have hne : key ≠ pair.1 := fun e => hm (e ▸ hkey)
      rw [Pairs.lookup_cons_eq, if_neg hne]

theorem ext_get? (hkeys : p.keys = q.keys) (hget : ∀ key, p.get? key = q.get? key) : p = q := by
  apply ext
  rw [pairs_eq_map p, pairs_eq_map q, hkeys]
  exact List.map_congr_left fun key _ => by rw [hget]

theorem keys_erase (p : Properties) (key : String) :
    (p.erase key).keys = p.keys.filter (· ≠ key) := by
  simp only [keys, Pairs.keys, pairs_erase, Pairs.drop, List.filter_map]
  rfl

/-- Without one of their keys, properties are the same if they are so in all others. -/
theorem get?_eq_of_erase_eq {key name : String} (h : p.erase key = q.erase key)
    (hne : name ≠ key) : p.get? name = q.get? name := by
  have herase := congrArg (·.get? name) h
  simpa only [get?_erase, if_neg hne] using herase

theorem erase_set {key other : String} (h : key ≠ other) (p : Properties) (value : String) :
    (p.set key value).erase other = (p.erase other).set key value := by
  apply ext_get?
  · rw [keys_erase, keys_set, keys_set, keys_erase]
    by_cases hp : key ∈ p.keys <;> simp [hp, h]
  · intro name
    rw [get?_erase, get?_set, get?_set, get?_erase]
    grind

/-- Of what was written under a key nothing is left when the key is taken out. -/
theorem erase_set_self (p : Properties) (key value : String) :
    (p.set key value).erase key = p.erase key := by
  apply ext_get?
  · rw [keys_erase, keys_set, keys_erase]
    split
    · rfl
    · simp
  · intro name
    rw [get?_erase, get?_erase, get?_set]
    split <;> rfl

/-! ## Taking keys out -/

theorem eraseAll_cons (p : Properties) (name : String) (names : List String) :
    p.eraseAll (name :: names) = (p.erase name).eraseAll names := rfl

theorem get?_eraseAll (p : Properties) (names : List String) (key : String) :
    (p.eraseAll names).get? key = if key ∈ names then none else p.get? key := by
  induction names generalizing p with
  | nil => rfl
  | cons name names ih =>
      rw [eraseAll_cons, ih, get?_erase]
      by_cases hname : key = name <;> simp [hname]

theorem pairs_eraseAll (p : Properties) (names : List String) :
    (p.eraseAll names).pairs = p.pairs.filter fun pair => pair.1 ∉ names := by
  induction names generalizing p with
  | nil => exact (List.filter_eq_self.mpr fun _ _ => rfl).symm
  | cons name names ih =>
      rw [eraseAll_cons, ih, pairs_erase, Pairs.drop, List.filter_filter]
      refine List.filter_congr fun pair _ => ?_
      by_cases hname : pair.1 = name <;> simp [hname]

theorem keys_eraseAll (p : Properties) (names : List String) :
    (p.eraseAll names).keys = p.keys.filter (· ∉ names) := by
  simp only [keys, Pairs.keys, pairs_eraseAll, List.filter_map]
  rfl

/-! ## Writing pairs -/

@[simp] theorem setAll_nil (p : Properties) : p.setAll [] = p := rfl

theorem setAll_cons (p : Properties) (pair : Pair) (pairs : List Pair) :
    p.setAll (pair :: pairs) = (p.set pair.1 pair.2).setAll pairs := rfl

theorem setAll_append (p : Properties) (pairs more : List Pair) :
    p.setAll (pairs ++ more) = (p.setAll pairs).setAll more :=
  List.foldl_append

/-- The last pair of the key counts, or else what was there. -/
theorem get?_setAll (p : Properties) (pairs : List Pair) (key : String) :
    (p.setAll pairs).get? key = (pairs.reverse.lookup key).or (p.get? key) := by
  -- From the end, as it is the last pair that counts.
  induction pairs using List.reverseRecOn with
  | nil => rfl
  | append_singleton pairs pair ih =>
      rw [setAll_append, setAll_cons, setAll_nil, get?_set, ih, List.reverse_append,
        List.reverse_singleton, List.singleton_append, Pairs.lookup_cons_eq]
      split <;> rfl

/-- Keys that were there keep their places; new ones follow in the order of
their first appearance. -/
theorem keys_setAll (p : Properties) (pairs : List Pair) :
    (p.setAll pairs).keys = p.keys ++ ((Pairs.keys pairs).filter (· ∉ p.keys)).eraseDups := by
  induction pairs generalizing p with
  | nil => simp [Pairs.keys]
  | cons pair pairs ih =>
      rw [setAll_cons, ih, keys_set]
      by_cases h : pair.1 ∈ p.keys
      · simp [Pairs.keys, h]
      · -- The key is an old one for the rest, so that no second place is made for it.
        have hsplit : (Pairs.keys pairs).filter (· ∉ p.keys ++ [pair.1]) =
            ((Pairs.keys pairs).filter (· ∉ p.keys)).filter (fun k => !k == pair.1) := by
          rw [List.filter_filter]
          refine List.filter_congr fun k _ => ?_
          by_cases hk : k = pair.1 <;> simp [hk]
        have hcons : (Pairs.keys (pair :: pairs)).filter (· ∉ p.keys) =
            pair.1 :: (Pairs.keys pairs).filter (· ∉ p.keys) :=
          List.filter_cons_of_pos (by simpa using h)
        rw [if_neg h, hsplit, hcons, List.eraseDups_cons, List.append_assoc,
          List.singleton_append]

theorem get?_ofList (pairs : List Pair) (key : String) :
    (ofList pairs).get? key = pairs.reverse.lookup key := by
  rw [ofList, get?_setAll, get?_empty, Option.or_none]

theorem keys_ofList (pairs : List Pair) : (ofList pairs).keys = (Pairs.keys pairs).eraseDups := by
  rw [ofList, keys_setAll]
  exact congrArg List.eraseDups (List.filter_eq_self.mpr fun _ _ => rfl)

theorem eraseDups_of_nodup {l : List String} (h : l.Nodup) : l.eraseDups = l := by
  induction l with
  | nil => rfl
  | cons a l ih =>
      obtain ⟨ha, hl⟩ := List.nodup_cons.mp h
      rw [List.eraseDups_cons, List.filter_eq_self.mpr, ih hl]
      intro b hb
      have hne : b ≠ a := fun e => ha (e ▸ hb)
      simpa using hne

theorem keys_setAll_of_nodup (h : (Pairs.keys pairs).Nodup) :
    (p.setAll pairs).keys = p.keys ++ (Pairs.keys pairs).filter (· ∉ p.keys) := by
  rw [keys_setAll, eraseDups_of_nodup (h.filter _)]

/-- Pairs with distinct keys read the same from either end. -/
theorem lookup_reverse_of_nodup (h : (Pairs.keys pairs).Nodup) (key : String) :
    pairs.reverse.lookup key = pairs.lookup key := by
  induction pairs with
  | nil => rfl
  | cons pair pairs ih =>
      obtain ⟨hm, hnd⟩ := List.nodup_cons.mp h
      rw [List.reverse_cons, List.lookup_append, ih hnd, List.lookup_singleton,
        Pairs.lookup_cons_eq]
      by_cases hk : key = pair.1
      · rw [lookup_eq_none_iff.mpr (hk ▸ hm), Option.none_or, if_pos hk,
          if_pos (beq_iff_eq.mpr hk)]
      · rw [if_neg hk, if_neg (by simpa using hk), Option.or_none]

theorem pairs_ofList_of_nodup (h : (Pairs.keys pairs).Nodup) : (ofList pairs).pairs = pairs := by
  suffices hall : ofList pairs = ⟨pairs, h⟩ from congrArg Properties.pairs hall
  apply ext_get?
  · rw [keys_ofList, eraseDups_of_nodup h]
    rfl
  · intro key
    rw [get?_ofList, lookup_reverse_of_nodup h]
    rfl

/-! ## One layer over another -/

theorem get?_overlay (p q : Properties) (key : String) :
    (p.overlay q).get? key = (q.get? key).or (p.get? key) := by
  rw [overlay, get?_setAll, lookup_reverse_of_nodup q.nodup]
  rfl

theorem keys_overlay (p q : Properties) :
    (p.overlay q).keys = p.keys ++ q.keys.filter (· ∉ p.keys) :=
  keys_setAll_of_nodup q.nodup

/-- What is written to the upper layer is written to both together. -/
theorem overlay_set (p q : Properties) (key value : String) :
    p.overlay (q.set key value) = (p.overlay q).set key value := by
  apply ext_get?
  · rw [keys_overlay, keys_set, keys_set, keys_overlay]
    by_cases hq : key ∈ q.keys
    · have hboth : key ∈ p.keys ++ q.keys.filter (· ∉ p.keys) := by
        by_cases hp : key ∈ p.keys <;> simp [hp, hq]
      rw [if_pos hq, if_pos hboth]
    · by_cases hp : key ∈ p.keys <;> simp [hp, hq]
  · intro name
    rw [get?_overlay, get?_set, get?_set, get?_overlay]
    split <;> rfl

theorem overlay_setAll (p q : Properties) (pairs : List Pair) :
    p.overlay (q.setAll pairs) = (p.overlay q).setAll pairs := by
  induction pairs generalizing q with
  | nil => rfl
  | cons pair pairs ih => rw [setAll_cons, ih, overlay_set, setAll_cons]

theorem overlay_assoc (p q r : Properties) :
    (p.overlay q).overlay r = p.overlay (q.overlay r) :=
  (overlay_setAll p q r.pairs).symm

/-- To write pairs one by one is to lay over what they make up. -/
theorem overlay_ofList (p : Properties) (pairs : List Pair) :
    p.overlay (ofList pairs) = p.setAll pairs :=
  overlay_setAll p ∅ pairs

theorem ofList_append (pairs more : List Pair) :
    ofList (pairs ++ more) = (ofList pairs).overlay (ofList more) := by
  rw [overlay_ofList, ofList, setAll_append]
  rfl

/-- What is taken from two layers together is taken from each of them. -/
theorem erase_overlay (p q : Properties) (key : String) :
    (p.overlay q).erase key = (p.erase key).overlay (q.erase key) := by
  apply ext_get?
  · simp only [keys_erase, keys_overlay, List.filter_append, List.filter_filter, List.mem_filter]
    congr 1
    refine List.filter_congr fun name _ => ?_
    by_cases hname : name = key <;> simp [hname]
  · intro name
    simp only [get?_erase, get?_overlay]
    split <;> rfl

@[simp] theorem empty_overlay (q : Properties) : (∅ : Properties).overlay q = q := by
  apply ext_get?
  · rw [keys_overlay]
    exact List.filter_eq_self.mpr fun _ _ => rfl
  · intro key
    rw [get?_overlay, get?_empty, Option.or_none]

/-! ## Stacks of layers -/

/-- All layers, each over those before it. -/
def stack (layers : List Properties) : Properties := layers.foldl overlay ∅

/-- What the last layer that has the key says. -/
def lastValue? (layers : List Properties) (key : String) : Option String :=
  layers.reverse.findSome? (·.get? key)

theorem lastValue?_eq_none_iff {layers : List Properties} :
    lastValue? layers key = none ↔ ∀ p ∈ layers, p.get? key = none := by
  simp [lastValue?]

theorem foldl_overlay (layers : List Properties) (p : Properties) :
    layers.foldl overlay p = p.setAll (layers.flatMap (·.pairs)) := by
  induction layers generalizing p with
  | nil => rfl
  | cons q layers ih => rw [List.foldl_cons, ih, List.flatMap_cons, setAll_append, overlay]

theorem stack_cons (p : Properties) (layers : List Properties) :
    stack (p :: layers) = p.overlay (stack layers) := by
  rw [stack, List.foldl_cons, empty_overlay, foldl_overlay, stack, foldl_overlay]
  exact (overlay_ofList p _).symm

theorem stack_append (layers more : List Properties) :
    stack (layers ++ more) = (stack layers).overlay (stack more) := by
  induction layers with
  | nil => exact (empty_overlay _).symm
  | cons p layers ih => rw [List.cons_append, stack_cons, ih, stack_cons, overlay_assoc]

theorem get?_stack (layers : List Properties) (key : String) :
    (stack layers).get? key = lastValue? layers key := by
  induction layers using List.reverseRecOn with
  | nil => rfl
  | append_singleton layers q ih =>
      rw [stack, List.foldl_append, List.foldl_cons, List.foldl_nil, get?_overlay, ← stack, ih,
        lastValue?, lastValue?, List.reverse_append, List.reverse_singleton,
        List.singleton_append, List.findSome?_cons]
      cases q.get? key <;> rfl

theorem keys_stack (layers : List Properties) :
    (stack layers).keys = (layers.flatMap keys).eraseDups := by
  have hkeys : Pairs.keys (layers.flatMap (·.pairs)) = layers.flatMap keys := by
    rw [Pairs.keys, List.map_flatMap]
    rfl
  rw [stack, foldl_overlay, ← hkeys]
  exact keys_ofList _

end DbRoute.Properties
