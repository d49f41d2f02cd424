/-!
# Ordered properties

Connection properties are pairs of texts with distinct keys, in the order in
which the keys first arrived. Writing to a key that is present keeps its
place, and a new key goes to the end. Laying one set over another writes its
properties one by one in their order. Some of the keys mean something to the
library itself.
-/

namespace DbRoute

abbrev Pair := String × String

namespace Pairs

def keys (pairs : List Pair) : List String :=
  pairs.map Prod.fst

/-- Writes `value` under `key`, in place if the key is present and else at the end. -/
def put (key value : String) : List Pair → List Pair
  | [] => [(key, value)]
  | pair :: rest => if pair.1 = key then (key, value) :: rest else pair :: put key value rest

/-- Removes `key`; the rest keeps its order. -/
def drop (key : String) (pairs : List Pair) : List Pair :=
  pairs.filter fun pair => pair.1 ≠ key

theorem keys_put (key value : String) (pairs : List Pair) :
    keys (put key value pairs) = if key ∈ keys pairs then keys pairs else keys pairs ++ [key] := by
  induction pairs with
  | nil => rfl
  | cons pair rest ih =>
      by_cases h : pair.1 = key
      · subst h
        simp [put, keys]
      · have h' : key ≠ pair.1 := fun e => h e.symm
        simp only [put, if_neg h]
        simp only [keys, List.map_cons] at ih ⊢
        rw [ih]
        by_cases hm : key ∈ rest.map Prod.fst <;> simp [h', hm]

theorem nodup_put (key value : String) {pairs : List Pair} (h : (keys pairs).Nodup) :
    (keys (put key value pairs)).Nodup := by
  rw [keys_put]
  split
  · exact h
  · rename_i hm
    exact List.nodup_append.2 ⟨h, by simp, by rintro a ha b hb rfl; exact hm (by simp_all)⟩

theorem nodup_drop (key : String) {pairs : List Pair} (h : (keys pairs).Nodup) :
    (keys (drop key pairs)).Nodup :=
  h.sublist (List.filter_sublist.map Prod.fst)

theorem lookup_cons_eq {α : Type} (pair : String × α) (rest : List (String × α)) (name : String) :
    List.lookup name (pair :: rest) = if name = pair.1 then some pair.2 else rest.lookup name := by
  rw [List.lookup_cons]
  by_cases h : name = pair.1
  · rw [if_pos h, beq_iff_eq.2 h]
  · rw [if_neg h, beq_eq_false_iff_ne.2 h]

theorem lookup_put (key value name : String) (pairs : List Pair) :
    (put key value pairs).lookup name = if name = key then some value else pairs.lookup name := by
  induction pairs with
  | nil => exact lookup_cons_eq (key, value) [] name
  | cons pair rest ih =>
      by_cases hk : pair.1 = key
      · rw [put, if_pos hk, lookup_cons_eq, lookup_cons_eq, hk]
        by_cases hn : name = key <;> simp [hn]
      · rw [put, if_neg hk, lookup_cons_eq, lookup_cons_eq, ih]
        by_cases hn : name = pair.1
        · subst hn
          simp [hk]
        · simp [hn]

theorem lookup_drop (key name : String) (pairs : List Pair) :
    (drop key pairs).lookup name = if name = key then none else pairs.lookup name := by
  induction pairs with
  | nil => simp [drop]
  | cons pair rest ih =>
      rw [drop] at ih ⊢
      by_cases hk : pair.1 = key
      · rw [List.filter_cons_of_neg (by simpa using hk), ih, lookup_cons_eq, hk]
        by_cases hn : name = key <;> simp [hn]
      · rw [List.filter_cons_of_pos (by simpa using hk), lookup_cons_eq, lookup_cons_eq, ih]
        by_cases hn : name = pair.1
        · subst hn
          simp [hk]
        · simp [hn]

end Pairs

/-- Properties in the order of first arrival. -/
structure Properties where
  pairs : List Pair
  nodup : (Pairs.keys pairs).Nodup

namespace Properties

instance : EmptyCollection Properties := ⟨⟨[], List.nodup_nil⟩⟩

instance : Inhabited Properties := ⟨∅⟩

def keys (p : Properties) : List String :=
  Pairs.keys p.pairs

def size (p : Properties) : Nat :=
  p.pairs.length

def isEmpty (p : Properties) : Bool :=
  p.pairs.isEmpty

def get? (p : Properties) (key : String) : Option String :=
  p.pairs.lookup key

def contains (p : Properties) (key : String) : Bool :=
  (p.get? key).isSome

def set (p : Properties) (key value : String) : Properties :=
  ⟨Pairs.put key value p.pairs, Pairs.nodup_put key value p.nodup⟩

def erase (p : Properties) (key : String) : Properties :=
  ⟨Pairs.drop key p.pairs, Pairs.nodup_drop key p.nodup⟩

def setAll (p : Properties) (pairs : List Pair) : Properties :=
  pairs.foldl (fun acc pair => acc.set pair.1 pair.2) p

def eraseAll (p : Properties) (keys : List String) : Properties :=
  keys.foldl erase p

/-- The properties of `p`, with those of `q` written over them. -/
def overlay (p q : Properties) : Properties :=
  p.setAll q.pairs

/-- The pairs in order; of a repeated key, the first place and the last value. -/
def ofList (pairs : List Pair) : Properties :=
  setAll ∅ pairs

/-- The same keys with the same values, in whatever order. -/
def sameMap (p q : Properties) : Bool :=
  p.size == q.size && p.pairs.all fun pair => q.get? pair.1 == some pair.2

@[ext] theorem ext {p q : Properties} (h : p.pairs = q.pairs) : p = q := by
  cases p; cases q; cases h; rfl

@[simp] theorem pairs_empty : (∅ : Properties).pairs = [] := rfl

@[simp] theorem pairs_set (p : Properties) (key value : String) :
    (p.set key value).pairs = Pairs.put key value p.pairs := rfl

@[simp] theorem pairs_erase (p : Properties) (key : String) :
    (p.erase key).pairs = Pairs.drop key p.pairs := rfl

theorem keys_set (p : Properties) (key value : String) :
    (p.set key value).keys = if key ∈ p.keys then p.keys else p.keys ++ [key] :=
  Pairs.keys_put key value p.pairs

@[simp] theorem get?_empty (key : String) : (∅ : Properties).get? key = none := rfl

theorem get?_set (p : Properties) (key value name : String) :
    (p.set key value).get? name = if name = key then some value else p.get? name :=
  Pairs.lookup_put key value name p.pairs

theorem get?_erase (p : Properties) (key name : String) :
    (p.erase key).get? name = if name = key then none else p.get? name :=
  Pairs.lookup_drop key name p.pairs

instance : DecidableEq Properties := fun p q =>
  if h : p.pairs = q.pairs then isTrue (ext h) else isFalse fun e => h (congrArg pairs e)

end Properties

/-! ## Property keys

The keys that the library itself reads or writes. The host and the port of the
n-th server, counted from one, stand under `host.n` and `port.n`; those of the
first also under `host` and `port`.
-/

namespace Key

def host := "host"
def port := "port"
def database := "dbname"
def user := "user"
def password := "password"
def hostCount := "numHosts"
/-- The named configurations to load, between commas. -/
def configurations := "useConfigs"
/-- The name of a registered transform. -/
def transform := "propertiesTransform"
/-- Rotation through hosts, which means nothing to failover and load balancing. -/
def roundRobin := "roundRobinLoadBalance"
/-- Whether the configuration of an embedding host is loaded. -/
def autoEmbedding := "autoConfigureForEmbedding"
def socketFactory := "socketFactory"
/-- The mark of the reading side of a replicated connection. -/
def slaveMark := "replication.isSlave"

def indexedHost (n : Nat) : String := host ++ "." ++ toString n
def indexedPort (n : Nat) : String := port ++ "." ++ toString n

end Key

end DbRoute
