import DbRoute.Configuration
import DbRoute.Proofs.Outcome

/-!
# Chains of loaders

A loader is a tree. Its leaves are the bundled configurations, those held in
memory and the directories; everything else is a chain. For a name the tree has
the answer of its first leaf, from the left, that knows the name, be it with a
failure, so how the leaves are put into chains makes no difference.

That a chain goes on behind a loader that does not know the name forgets what
this loader said. Nothing is lost by it, as every loader names in its failures
the configuration that it was asked for.
-/

namespace DbRoute

open Outcome

/-- The configuration that could not be loaded. -/
def LoadError.name : LoadError → String
  | notFound name => name
  | unreadable name _ => name
  | malformed name _ => name

namespace Loader

variable {name : String}

/-- The loader knows the name: it has the configuration, or one that cannot be loaded. -/
def Knows (loader : Loader) (name : String) : Prop :=
  ∀ other, load loader name ≠ .error (.notFound other)

/-- A loader that is not put together from others. -/
def IsLeaf : Loader → Prop
  | chain _ => False
  | bundled => True
  | memory _ => True
  | directory _ => True

mutual

/-- The leaves of a tree of loaders, from left to right. -/
def leaves : Loader → List Loader
  | chain loaders => leavesOf loaders
  | bundled => [bundled]
  | memory configurations => [memory configurations]
  | directory files => [directory files]

def leavesOf : List Loader → List Loader
  | [] => []
  | loader :: rest => leaves loader ++ leavesOf rest

end

mutual

theorem isLeaf_of_mem_leaves :
    ∀ loader : Loader, ∀ leaf ∈ leaves loader, leaf.IsLeaf
  | chain loaders => isLeaf_of_mem_leavesOf loaders
  | bundled => List.forall_mem_singleton.mpr trivial
  | memory _ => List.forall_mem_singleton.mpr trivial
  | directory _ => List.forall_mem_singleton.mpr trivial

theorem isLeaf_of_mem_leavesOf :
    ∀ loaders : List Loader, ∀ leaf ∈ leavesOf loaders, leaf.IsLeaf
  | [] => fun _ h => absurd h List.not_mem_nil
  | loader :: rest => by
      rw [leavesOf, List.forall_mem_append]
      exact ⟨isLeaf_of_mem_leaves loader, isLeaf_of_mem_leavesOf rest⟩

end

/-! ## Failures name what was asked for -/

theorem failsAs_lookUp (configurations : List (String × Properties)) (name : String) :
    FailsAs (·.name = name) (lookUp configurations name) := by
  unfold lookUp
  split
  · exact .ok _
  · exact .error rfl

theorem failsAs_readFile (name : String) (content : FileContent) :
    FailsAs (·.name = name) (readFile name content) := by
  unfold readFile
  split
  · exact .error rfl
  · split
    · next text _ =>
      have hname : ∀ defect, (LoadError.malformed name defect).name = name := fun _ => rfl
      exact .mapError hname (readConfiguration text)
    · exact .error rfl

theorem failsAs_loadFile (files : List (String × FileContent)) (name : String) :
    FailsAs (·.name = name) (loadFile files name) := by
  unfold loadFile
  split
  · exact .error rfl
  split
  · exact .error rfl
  split
  · exact .error rfl
  split
  · exact .error rfl
  · exact failsAs_readFile name _

/-- The answer of a loader, or else, if it does not know the name, the next one. -/
def otherwise (answer next : Except LoadError Properties) : Except LoadError Properties :=
  match answer with
  | .error (.notFound _) => next
  | known => known

theorem loadFirst_cons (loader : Loader) (rest : List Loader) (name : String) :
    loadFirst (loader :: rest) name = otherwise (load loader name) (loadFirst rest name) := by
  rw [loadFirst.eq_def]
  rfl

theorem failsAs_otherwise {answer next : Except LoadError Properties}
    (hanswer : FailsAs (·.name = name) answer) (hnext : FailsAs (·.name = name) next) :
    FailsAs (·.name = name) (otherwise answer next) := by
  unfold otherwise
  split
  · exact hnext
  · exact hanswer

mutual

theorem failsAs_load (name : String) :
    ∀ loader : Loader, FailsAs (·.name = name) (load loader name)
  | bundled => failsAs_lookUp _ name
  | memory configurations => failsAs_lookUp configurations name
  | directory files => failsAs_loadFile files name
  | chain loaders => failsAs_loadFirst name loaders

theorem failsAs_loadFirst (name : String) :
    ∀ loaders : List Loader, FailsAs (·.name = name) (loadFirst loaders name)
  | [] => .error rfl
  | loader :: rest => by
      rw [loadFirst_cons]
      exact failsAs_otherwise (failsAs_load name loader) (failsAs_loadFirst name rest)

end

/-- A loader that does not know a name says so of this name. -/
theorem not_knows_iff {loader : Loader} :
    ¬Knows loader name ↔ load loader name = .error (.notFound name) := by
  constructor
  · intro h
    obtain ⟨other, hother⟩ := not_forall_not.mp h
    obtain rfl : other = name := failsAs_load name loader _ hother
    exact hother
  · intro h hknows
    exact hknows name h

/-! ## One chain of leaves -/

theorem otherwise_assoc (first second third : Except LoadError Properties) :
    otherwise (otherwise first second) third = otherwise first (otherwise second third) := by
  rcases first with (_ | _ | _) | _ <;> rfl

theorem otherwise_notFound {answer : Except LoadError Properties}
    (h : FailsAs (·.name = name) answer) :
    otherwise answer (.error (.notFound name)) = answer := by
  rcases answer with (other | _ | _) | _
  · obtain rfl : other = name := h _ rfl
    rfl
  · rfl
  · rfl
  · rfl

theorem loadFirst_append (front back : List Loader) (name : String) :
    loadFirst (front ++ back) name =
      otherwise (loadFirst front name) (loadFirst back name) := by
  induction front with
  | nil => rfl
  | cons loader rest ih =>
      rw [List.cons_append, loadFirst_cons, ih, loadFirst_cons, otherwise_assoc]

theorem loadFirst_singleton (loader : Loader) (name : String) :
    loadFirst [loader] name = load loader name := by
  rw [loadFirst_cons]
  exact otherwise_notFound (failsAs_load name loader)

mutual

theorem load_eq_loadFirst_leaves (name : String) :
    ∀ loader : Loader, load loader name = loadFirst (leaves loader) name
  | bundled => (loadFirst_singleton bundled name).symm
  | memory configurations => (loadFirst_singleton (memory configurations) name).symm
  | directory files => (loadFirst_singleton (directory files) name).symm
  | chain loaders => loadFirst_eq_loadFirst_leavesOf name loaders

theorem loadFirst_eq_loadFirst_leavesOf (name : String) :
    ∀ loaders : List Loader, loadFirst loaders name = loadFirst (leavesOf loaders) name
  | [] => rfl
  | loader :: rest => by
      rw [loadFirst_cons, leavesOf, loadFirst_append, ← load_eq_loadFirst_leaves name loader,
        ← loadFirst_eq_loadFirst_leavesOf name rest]

end

theorem otherwise_of_knows {loader : Loader} (h : Knows loader name)
    (next : Except LoadError Properties) :
    otherwise (load loader name) next = load loader name := by
  unfold otherwise
  split
  · next other hother => exact absurd hother (h other)
  · rfl

theorem loadFirst_of_first {loaders : List Loader} {loader : Loader}
    (h : First (Knows · name) loaders loader) : loadFirst loaders name = load loader name := by
  induction h with
  | here hknows => rw [loadFirst_cons, otherwise_of_knows hknows]
  | later hunknown _ ih =>
      rw [loadFirst_cons, not_knows_iff.mp hunknown]
      exact ih

theorem loadFirst_eq_notFound_iff {loaders : List Loader} :
    loadFirst loaders name = .error (.notFound name) ↔
      ∀ loader ∈ loaders, ¬Knows loader name := by
  constructor
  · intro h loader hmem hknows
    obtain ⟨first, hfirst⟩ := (First.exists_iff (P := (Knows · name))).mpr ⟨loader, hmem, hknows⟩
    exact hfirst.holds.2 name ((loadFirst_of_first hfirst).symm.trans h)
  · intro h
    induction loaders with
    | nil => rfl
    | cons loader rest ih =>
        obtain ⟨hloader, hrest⟩ := List.forall_mem_cons.mp h
        rw [loadFirst_cons, not_knows_iff.mp hloader]
        exact ih hrest

/-- However loaders are put into chains, and these into others, empty ones among
them: to load a name from the tree is to load it from the one chain of its leaves,
from left to right. The answer is that of the first leaf that knows the name,
whether it has the configuration or fails to load it; and the name is not found,
under no other name than its own, if and only if no leaf knows it. -/
theorem load_flattens (loader : Loader) (name : String) :
    (∀ leaf ∈ leaves loader, leaf.IsLeaf) ∧
    load loader name = load (chain (leaves loader)) name ∧
    (∀ leaf, First (Knows · name) (leaves loader) leaf → load loader name = load leaf name) ∧
    (load loader name = .error (.notFound name) ↔ ∀ leaf ∈ leaves loader, ¬Knows leaf name) ∧
    ∀ other, load loader name = .error (.notFound other) → other = name := by
  have hflat := load_eq_loadFirst_leaves name loader
  refine ⟨isLeaf_of_mem_leaves loader, hflat, ?_, ?_, ?_⟩
  · intro leaf hfirst
    exact hflat.trans (loadFirst_of_first hfirst)
  · rw [hflat]
    exact loadFirst_eq_notFound_iff
  · intro other hother
    exact failsAs_load name loader _ hother

/-- A file that is no configuration, in a chain within a chain, between an empty
chain and a good configuration of the same name. -/
def brokenInside : Loader :=
  chain [chain [], memory [("other", ∅)],
    chain [directory [("n.toml", .bytes "a = [".toUTF8)], bundled],
    memory [("n", .ofList [("a", "1")])]]

/-- The broken file is not passed over, and a name that nobody knows is not found. -/
theorem load_flattens_brokenInside :
    load brokenInside "n" = .error (.malformed "n" syntaxDefect) ∧
      load brokenInside "m" = .error (.notFound "m") := by
  have hbroken : load (directory [("n.toml", .bytes "a = [".toUTF8)]) "n" =
      .error (.malformed "n" syntaxDefect) := by decide +kernel
  constructor
  · obtain ⟨_, _, hfirst, _⟩ := load_flattens brokenInside "n"
    rw [hfirst _ (.later (not_knows_iff.mpr rfl) (.here fun other h => nomatch hbroken.symm.trans h)),
      hbroken]
  · obtain ⟨_, _, _, hnone, _⟩ := load_flattens brokenInside "m"
    refine hnone.mpr fun leaf hleaf => not_knows_iff.mpr ?_
    simp only [brokenInside, leaves, leavesOf, List.nil_append, List.append_nil, List.mem_cons,
      List.cons_append, List.not_mem_nil, or_false] at hleaf
    rcases hleaf with rfl | rfl | rfl | rfl <;> decide +kernel

end Loader

end DbRoute
