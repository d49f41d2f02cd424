import DbRoute.Proofs.Host
import DbRoute.Proofs.Url.Scheme
import DbRoute.Url
import Mathlib.Data.List.TakeDrop

/-!
# Reading a URL

A URL is the opening of a scheme and a rest from which everything else is read.
What a URL that can be read is made of, and that its hosts are at least one and
no more than there is room for.
-/

namespace DbRoute.UrlParts

open Outcome

variable {url : String} {u : UrlParts} {scheme : Scheme} {rest : List Char}

theorem ofRest_eq_ok :
    ofRest scheme rest = .ok u ↔
      u.scheme = scheme ∧
      Host.readList (String.ofList (splitPath (splitQuery rest).1).1) = .ok u.hosts ∧
      u.database = (splitPath (splitQuery rest).1).2.map String.ofList ∧
      u.parameters =
        ((splitQuery rest).2.map fun q => Query.parameters (String.ofList q)).getD ∅ := by
  rw [ofRest, bind_eq_ok]
  constructor
  · rintro ⟨hosts, hhosts, ⟨⟩⟩
    exact ⟨rfl, hhosts, rfl, rfl⟩
  · obtain ⟨_, hosts, _, _⟩ := u
    rintro ⟨rfl, hhosts, rfl, rfl⟩
    exact ⟨hosts, hhosts, rfl⟩

theorem read_eq_some :
    read url = .ok (some u) ↔
      ∃ scheme, Scheme.ofUrl? url = some scheme ∧
        ofRest scheme (url.toList.drop scheme.opening.length) = .ok u := by
  unfold read
  cases Scheme.ofUrl? url with
  | none => simp
  | some scheme => simp [map_eq_ok]

theorem read_eq_none_iff : read url = .ok none ↔ Scheme.ofUrl? url = none := by
  unfold read
  cases Scheme.ofUrl? url with
  | none => simp
  | some scheme => simp [map_eq_ok]

/-- The URL starts as the scheme asks, its letters in any case, and goes on with `rest`. -/
def Opens (url : String) (scheme : Scheme) (rest : List Char) : Prop :=
  ∃ opening, url.toList = opening ++ rest ∧
    Text.sameIgnoringCase opening scheme.opening.toList = true

theorem opens_iff :
    Opens url scheme rest ↔
      Scheme.ofUrl? url = some scheme ∧ rest = url.toList.drop scheme.opening.length := by
  rw [Scheme.ofUrl?_eq_some_iff_exists]
  constructor
  · rintro ⟨opening, hurl, hsame⟩
    refine ⟨⟨opening, rest, hurl, hsame⟩, ?_⟩
    rw [hurl, ← String.length_toList, ← Text.length_of_sameIgnoringCase hsame, List.drop_left]
  · rintro ⟨⟨opening, behind, hurl, hsame⟩, rfl⟩
    refine ⟨opening, ?_, hsame⟩
    rw [hurl, ← String.length_toList, ← Text.length_of_sameIgnoringCase hsame, List.drop_left]

theorem read_of_opens (h : Opens url scheme rest) : read url = (ofRest scheme rest).map some := by
  obtain ⟨hscheme, rfl⟩ := opens_iff.mp h
  rw [read, hscheme]

theorem splitQuery_fst (s : List Char) : (splitQuery s).1 = s.takeWhile (· != '?') := by
  rw [splitQuery, List.span_eq_takeWhile_dropWhile]
  split <;> next heq => exact (congrArg Prod.fst heq).symm

theorem length_splitQuery_le (s : List Char) : (splitQuery s).1.length ≤ s.length := by
  rw [splitQuery_fst]
  exact (List.takeWhile_sublist _).length_le

theorem length_splitPath_le (s : List Char) : (splitPath s).1.length ≤ s.length := by
  unfold splitPath
  cases hcut : Text.cut? '/' s with
  | none => exact Nat.le_refl _
  | some sides =>
      have hs := congrArg List.length (Text.eq_of_cutFrom? hcut)
      obtain ⟨segment, path⟩ := sides
      rw [List.length_append, List.length_cons] at hs
      cases path <;> dsimp only at hs ⊢ <;> omega

theorem hosts_ne_nil_of_read (h : read url = .ok (some u)) : u.hosts ≠ [] := by
  obtain ⟨scheme, _, hrest⟩ := read_eq_some.mp h
  exact Host.ne_nil_of_readList (ofRest_eq_ok.mp hrest).2.1

theorem faithful_of_read (h : read url = .ok (some u)) : ∀ host ∈ u.hosts, host.Faithful := by
  obtain ⟨scheme, _, hrest⟩ := read_eq_some.mp h
  exact Host.faithful_of_readList (ofRest_eq_ok.mp hrest).2.1

theorem length_hosts_le_of_read (h : read url = .ok (some u)) :
    u.hosts.length ≤ url.length + 1 := by
  obtain ⟨scheme, _, hrest⟩ := read_eq_some.mp h
  have hhosts := Host.length_le_of_readList (ofRest_eq_ok.mp hrest).2.1
  have hsegment := length_splitPath_le (splitQuery (url.toList.drop scheme.opening.length)).1
  have hlocation := length_splitQuery_le (url.toList.drop scheme.opening.length)
  rw [String.toList_ofList] at hhosts
  rw [List.length_drop, String.length_toList] at hlocation
  omega

end DbRoute.UrlParts
