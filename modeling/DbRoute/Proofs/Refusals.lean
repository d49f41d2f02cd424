import DbRoute.Proofs.Faults
import DbRoute.Proofs.Text.Tokens
import DbRoute.Proofs.Url.Reading
import DbRoute.Proofs.Url.Scheme

/-!
# What is refused, and when

The one thing that can be wrong with the text of a URL is a plain host with a
colon and nothing behind it. The first such host of a list is the one that is
complained about. A URL that nothing opens is nobody's fault, and any other one
can be read.

Complaints come in the order of the work: about the text of a URL before any
transform has a say, and about a transform before any configuration has one.
-/

namespace DbRoute

open Outcome

/-! ## Hosts without a port -/

namespace Host

variable {segment token : String} {fault : Fault}

/-- A plain host, its first colon at its very end. -/
structure Dangling (token : List Char) : Prop where
  plain : ¬ descriptorMark.toList.map Char.toLower <+: (Text.trimStart token).map Char.toLower
  colon : ∃ name, token = name ++ [':'] ∧ ':' ∉ name

theorem splitPort_eq_error :
    splitPort token = .error fault ↔ Dangling token.toList ∧ fault = .danglingPort token := by
  cases hmark : isDescriptorText (Text.trimStart token.toList) with
  | true =>
      rw [splitPort_of_descriptor hmark]
      constructor
      · rintro ⟨⟩
      · rintro ⟨hdangling, _⟩
        exact absurd (isDescriptorText_iff.mp hmark) hdangling.plain
  | false =>
      have hplain := Bool.eq_false_iff.mp hmark
      rw [Ne, isDescriptorText_iff] at hplain
      rcases colon_cases token.toList with hcolon | ⟨name, port, hs, hname⟩
      · rw [splitPort_of_no_colon hmark hcolon]
        constructor
        · rintro ⟨⟩
        · rintro ⟨⟨_, name, hs, _⟩, _⟩
          exact absurd (by simp [hs]) hcolon
      · rw [splitPort_of_colon hmark hs hname]
        constructor
        · intro h
          split at h
          · next hport =>
            cases h
            exact ⟨⟨hplain, name, by rw [hs, hport], hname⟩, rfl⟩
          · cases h
        · rintro ⟨⟨_, other, hother, hfree⟩, rfl⟩
          -- There is one first colon, so what is behind it is the same in both readings.
          have hspan := Text.span_append hname port
          rw [← hs, hother, Text.span_append hfree] at hspan
          have hport : [] = port := (List.cons.inj (Prod.mk.inj hspan).2).2
          exact if_pos hport.symm

theorem ofToken_eq_error :
    ofToken token = .error fault ↔ Dangling token.toList ∧ fault = .danglingPort token := by
  rw [ofToken, bind_eq_error, splitPort_eq_error]
  constructor
  · rintro (h | ⟨_, _, hpure⟩)
    · exact h
    · cases hpure
  · exact Or.inl

/-- The first host of a list without its port is the one that is complained about. -/
theorem readList_eq_error :
    readList segment = .error fault ↔
      Text.allBlank segment.toList = false ∧
        ∃ token, First Dangling (Text.tokens ',' segment.toList) token ∧
          fault = .danglingPort (String.ofList token) := by
  cases hblank : Text.allBlank segment.toList with
  | true =>
      rw [readList_blank hblank]
      constructor
      · rintro ⟨⟩
      · rintro ⟨⟨⟩, _⟩
  | false =>
      have hfails : ∀ token : List Char,
          (∃ e, ofToken (String.ofList token) = .error e) ↔ Dangling token := by
        intro token
        simp only [ofToken_eq_error, String.toList_ofList]
        exact ⟨fun ⟨_, h, _⟩ => h, fun h => ⟨_, h, rfl⟩⟩
      rw [readList, if_neg (by rw [hblank]; exact Bool.false_ne_true), mapM_eq_error]
      constructor
      · rintro ⟨token, hfirst, hfault⟩
        exact ⟨rfl, token, hfirst.congr hfails, (ofToken_eq_error.mp hfault).2⟩
      · rintro ⟨_, token, hfirst, rfl⟩
        refine ⟨token, hfirst.congr fun t => (hfails t).symm, ofToken_eq_error.mpr ⟨?_, rfl⟩⟩
        rw [String.toList_ofList]
        exact hfirst.holds.2

end Host

/-! ## The text of a URL -/

namespace UrlParts

variable {url : String} {scheme : Scheme} {rest : List Char} {fault : Fault}

/-- The list of hosts behind the opening of a URL: up to the first question mark,
and there up to the first slash outside quotation. -/
def hostSegment (rest : List Char) : List Char :=
  let location := rest.takeWhile (· != '?')
  match (Text.cutPlaces '/' location).head? with
  | some i => location.take i
  | none => location

theorem hostSegment_eq (rest : List Char) :
    (splitPath (splitQuery rest).1).1 = hostSegment rest := by
  rw [splitQuery_fst, hostSegment]
  generalize rest.takeWhile (· != '?') = location
  unfold splitPath
  cases hcut : Text.cut? '/' location with
  | none =>
      have hplaces := (Text.cut?_eq_none_iff (by decide)).mp hcut
      rw [hplaces]
      rfl
  | some sides =>
      obtain ⟨segment, path⟩ := sides
      have hlocation := Text.eq_of_cutFrom? hcut
      have hplaces := (Text.sealed_of_cut? hcut).cutPlaces_append (by decide) path
      dsimp only at hlocation hplaces
      rw [hlocation, hplaces]
      cases path <;> simp

/-- The hosts of the list, as they are written. -/
def hostTokens (rest : List Char) : List (List Char) := Text.tokens ',' (hostSegment rest)

theorem ofRest_eq_error :
    ofRest scheme rest = .error fault ↔
      Text.allBlank (hostSegment rest) = false ∧
        ∃ token, First Host.Dangling (hostTokens rest) token ∧
          fault = .danglingPort (String.ofList token) := by
  have hread : ofRest scheme rest = .error fault ↔
      Host.readList (String.ofList (hostSegment rest)) = .error fault := by
    rw [ofRest, ← hostSegment_eq, bind_eq_error]
    constructor
    · rintro (h | ⟨_, _, hpure⟩)
      · exact h
      · cases hpure
    · exact Or.inl
  rw [hread, Host.readList_eq_error, String.toList_ofList, hostTokens]

/-- What comes of a URL with the given text behind its opening. -/
structure Answers (rest : List Char) (answer : Except Fault (Option UrlParts)) : Prop where
  refused_iff : (∃ fault, answer = .error fault) ↔
    Text.allBlank (hostSegment rest) = false ∧ ∃ token ∈ hostTokens rest, Host.Dangling token
  fault_eq : ∀ fault, answer = .error fault →
    ∃ token, First Host.Dangling (hostTokens rest) token ∧
      fault = .danglingPort (String.ofList token)
  accepted : (¬∃ fault, answer = .error fault) → ∃ u, answer = .ok (some u) ∧ u.hosts ≠ []

theorem answers_of_opens (h : Opens url scheme rest) : Answers rest (read url) := by
  have herror : ∀ fault, read url = .error fault ↔ ofRest scheme rest = .error fault := by
    intro fault
    rw [read_of_opens h, map_eq_error]
  constructor
  · rw [← First.exists_iff]
    simp only [herror, ofRest_eq_error]
    constructor
    · rintro ⟨_, hblank, token, hfirst, _⟩
      exact ⟨hblank, token, hfirst⟩
    · rintro ⟨hblank, token, hfirst⟩
      exact ⟨_, hblank, token, hfirst, rfl⟩
  · intro fault hfault
    rw [herror, ofRest_eq_error] at hfault
    exact hfault.2
  · intro hnone
    cases hread : read url with
    | error fault => exact absurd ⟨fault, hread⟩ hnone
    | ok u? =>
        obtain ⟨u, _, rfl⟩ := map_eq_ok.mp ((read_of_opens h).symm.trans hread)
        exact ⟨u, rfl, hosts_ne_nil_of_read hread⟩

theorem read_eq_none_iff_not_opens :
    read url = .ok none ↔ ∀ scheme rest, ¬Opens url scheme rest := by
  rw [read_eq_none_iff, Option.eq_none_iff_forall_ne_some]
  constructor
  · intro h scheme rest hopens
    exact h scheme (opens_iff.mp hopens).1
  · intro h scheme hscheme
    exact h scheme _ (opens_iff.mpr ⟨hscheme, rfl⟩)

end UrlParts

/-! ## The order of complaints -/

namespace Context

open Resolution UrlParts

variable {c : Context} {url : String} {overrides : Properties} {u : UrlParts} {fault : Fault}

theorem resolve_of_read_eq_error (h : read url = .error fault) :
    c.resolve url overrides = .error fault :=
  bind_eq_error.mpr (Or.inl h)

theorem resolve_of_transformed_eq_error (hread : read url = .ok (some u))
    (h : transformed c.transforms u.properties overrides = .error fault) :
    c.resolve url overrides = .error fault := by
  have hlayer : c.urlLayer u overrides = .error fault := map_eq_error.mpr h
  exact bind_eq_error.mpr (Or.inr ⟨some u, hread, bind_eq_error.mpr (Or.inl hlayer)⟩)

/-- The faults of a resolution by the step that finds them, each step taken only
if those before it find none. -/
inductive Finds (c : Context) (url : String) (overrides : Properties) : Fault → Prop
  | reading {fault : Fault} : read url = .error fault → Finds c url overrides fault
  | transforming {u : UrlParts} {fault : Fault} : read url = .ok (some u) →
      transformed c.transforms u.properties overrides = .error fault →
      Finds c url overrides fault
  | merging {u : UrlParts} {layer : Properties} {fault : Fault} : read url = .ok (some u) →
      transformed c.transforms u.properties overrides = .ok layer →
      merge c.load (addEmbedding c.environment layer overrides) overrides = .error fault →
      Finds c url overrides fault

theorem resolve_eq_error_iff :
    c.resolve url overrides = .error fault ↔ Finds c url overrides fault := by
  constructor
  · intro h
    rcases bind_eq_error.mp h with hread | ⟨u?, hread, h⟩
    · exact .reading hread
    cases u? with
    | none => cases h
    | some u =>
        rcases bind_eq_error.mp h with hlayer | ⟨layer, hlayer, h⟩
        · exact .transforming hread (map_eq_error.mp hlayer)
        obtain ⟨transformed, htransformed, rfl⟩ := map_eq_ok.mp hlayer
        rcases bind_eq_error.mp h with hmerge | ⟨_, _, hpure⟩
        · exact .merging hread htransformed hmerge
        · cases hpure
  · intro h
    cases h with
    | reading hread => exact resolve_of_read_eq_error hread
    | transforming hread h => exact resolve_of_transformed_eq_error hread h
    | @merging u layer _ hread htransformed hmerge =>
        have hlayer : c.urlLayer u overrides = .ok (addEmbedding c.environment layer overrides) :=
          map_eq_ok.mpr ⟨layer, htransformed, rfl⟩
        refine bind_eq_error.mpr (Or.inr ⟨some u, hread, ?_⟩)
        exact bind_eq_error.mpr (Or.inr ⟨_, hlayer, bind_eq_error.mpr (Or.inl hmerge)⟩)

/-- A URL is nobody's if no scheme opens it. Otherwise it is refused if and only if
its list of hosts is not blank and has a plain host with nothing behind its first
colon, and the first of these is named as it is written; and if it is not refused
it has a host. To resolve a URL fails in no other way than for an attribute that is
not valid: for the text of the URL whatever transforms and configurations there are,
then for a transform whatever the configurations are, and then for these. -/
theorem refuses_in_order (url : String) :
    (read url = .ok none ↔ ∀ scheme rest, ¬Opens url scheme rest) ∧
    (∀ scheme rest, Opens url scheme rest → Answers rest (read url)) ∧
    ∀ (c : Context) (overrides : Properties),
      (∀ fault, c.resolve url overrides = .error fault → fault.code = .invalidAttribute) ∧
      (∀ fault, c.resolve url overrides = .error fault ↔ Finds c url overrides fault) ∧
      (∀ fault, read url = .error fault → c.resolve url overrides = .error fault) ∧
      ∀ u fault, read url = .ok (some u) →
        transformed c.transforms u.properties overrides = .error fault →
        ∀ load environment,
          resolve ⟨load, c.transforms, environment⟩ url overrides = .error fault := by
  refine ⟨read_eq_none_iff_not_opens, fun _ _ => answers_of_opens, ?_⟩
  intro c overrides
  refine ⟨failsAs_resolve c url overrides, fun _ => resolve_eq_error_iff,
    fun _ => resolve_of_read_eq_error, ?_⟩
  intro u fault hread htransformed load environment
  exact resolve_of_transformed_eq_error hread htransformed

/-- Neither its one transform nor any configuration does what is asked of it. -/
def failing : Context where
  load := fun name => .error (.notFound name)
  transforms := ⟨[("t", fun _ => .error "no")]⟩

/-- Two hosts have a colon at their end, and a descriptor before them has one, too. -/
def danglingRest : List Char := "a:1,ADDRESS=b:,:,c:/db?propertiesTransform=t&useConfigs=n".toList

/-- With faults of all three steps, and then with those of the last two. -/
theorem refuses_in_order_failing :
    (∃ token, First Host.Dangling (hostTokens danglingRest) token ∧
      failing.resolve (String.ofList ("MySQL://".toList ++ danglingRest)) ∅ =
        .error (.danglingPort (String.ofList token))) ∧
    failing.resolve "mysql://a/db?propertiesTransform=t&useConfigs=n" ∅ =
      .error (.transformFailed "t" "no") := by
  constructor
  · obtain ⟨_, hanswers, hresolve⟩ :=
      refuses_in_order (String.ofList ("MySQL://".toList ++ danglingRest))
    have hopens : Opens (String.ofList ("MySQL://".toList ++ danglingRest)) .plain danglingRest :=
      ⟨"MySQL://".toList, String.toList_ofList, by decide⟩
    have hdangling : Host.Dangling ":".toList := ⟨by decide, [], rfl, by decide⟩
    obtain ⟨fault, hfault⟩ := (hanswers _ _ hopens).refused_iff.mpr
      ⟨by decide +kernel, ":".toList, by decide +kernel, hdangling⟩
    obtain ⟨token, hfirst, rfl⟩ := (hanswers _ _ hopens).fault_eq fault hfault
    exact ⟨token, hfirst, (hresolve failing ∅).2.2.1 _ hfault⟩
  · obtain ⟨_, _, hresolve⟩ := refuses_in_order "mysql://a/db?propertiesTransform=t&useConfigs=n"
    have hread : read "mysql://a/db?propertiesTransform=t&useConfigs=n" =
        .ok (some ⟨.plain, [.plain "a" "3306"], some "db",
          .ofList [("propertiesTransform", "t"), ("useConfigs", "n")]⟩) := by decide +kernel
    exact (hresolve failing ∅).2.2.2 _ _ hread (by decide +kernel) _ _

end Context

end DbRoute
