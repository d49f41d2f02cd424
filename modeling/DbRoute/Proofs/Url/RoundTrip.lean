import DbRoute.Proofs.Url.Query
import DbRoute.Proofs.Url.Reading
import DbRoute.Proofs.Url.Scheme
import DbRoute.Proofs.Url.WrittenHost

/-!
# URLs as they are written

A URL is written from an opening, hosts, perhaps a database, and perhaps a
query. However the letters of the opening are spelled and whatever delimiters
stand in quoted values, reading the URL gives just these parts again: every
scan of the text comes to the end of a part without an open mark.
-/

namespace DbRoute

open Text Outcome

/-! ## Queries -/

/-- Parameters that can be written into a query: neither keys nor values are
empty, and no key holds a delimiter. -/
structure WrittenQuery where
  parameters : Properties
  key_free : ∀ pair ∈ parameters.pairs,
    pair.1 ≠ "" ∧ '&' ∉ pair.1.toList ∧ '=' ∉ pair.1.toList
  value_ne_empty : ∀ pair ∈ parameters.pairs, pair.2 ≠ ""

/-- A key as it is and a value percent-encoded. -/
def pairText (pair : Pair) : List Char :=
  pair.1.toList ++ '=' :: (percentEncode pair.2).toList

namespace WrittenQuery

variable (q : WrittenQuery)

def text : List Char := ['&'].intercalate (q.parameters.pairs.map pairText)

theorem not_mem_pairText {pair : Pair} (h : pair ∈ q.parameters.pairs) : '&' ∉ pairText pair := by
  have hkey := (q.key_free pair h).2.1
  have hvalue : '&' ∉ (percentEncode pair.2).toList := not_mem_percentEncode _ (by decide)
  simp [pairText, hkey, hvalue]

theorem parameter?_pairText {pair : Pair} (h : pair ∈ q.parameters.pairs) :
    Query.parameter? (pairText pair) = some pair := by
  obtain ⟨hkey, _, hequals⟩ := q.key_free pair h
  have hpair : Query.IsPair (pair.1 ++ "=" ++ percentEncode pair.2) pair.1
      (percentEncode pair.2) :=
    ⟨rfl, hequals, hkey, percentEncode_ne_empty (q.value_ne_empty pair h)⟩
  have hread := hpair.parameter?
  rwa [Query.toList_pair, formDecode_percentEncode] at hread

/-- A query is read as the parameters from which it is written, in their order. -/
theorem parameters_text : Query.parameters (String.ofList q.text) = q.parameters := by
  have hpieces : (pieces '&' q.text).filterMap Query.parameter? = q.parameters.pairs := by
    unfold text
    cases hpairs : q.parameters.pairs with
    | nil => rfl
    | cons first rest =>
        have hfree : ∀ p ∈ (first :: rest).map pairText, '&' ∉ p := by
          intro p hp
          obtain ⟨pair, hpair, rfl⟩ := List.mem_map.mp hp
          exact q.not_mem_pairText (hpairs ▸ hpair)
        have hne : (first :: rest).map pairText ≠ [] := List.cons_ne_nil _ _
        rw [pieces_intercalate hne hfree, List.filterMap_map]
        refine (List.filterMap_congr fun pair hpair => ?_).trans List.filterMap_some
        exact q.parameter?_pairText (hpairs ▸ hpair)
  rw [Query.parameters, String.toList_ofList, hpieces]
  exact Properties.empty_overlay q.parameters

end WrittenQuery

/-! ## URLs -/

/-- The parts of a URL as they are written. -/
structure WrittenUrl where
  scheme : Scheme
  /-- The opening of the scheme, its letters in whatever case. -/
  opening : String
  hosts : List WrittenHost
  database : Option String
  query : Option WrittenQuery
  opening_spells : sameIgnoringCase opening.toList scheme.opening.toList = true
  hosts_ne_nil : hosts ≠ []
  database_free : ∀ d ∈ database, d ≠ "" ∧ '?' ∉ d.toList

namespace WrittenUrl

variable (u : WrittenUrl)

def segment : List Char := [','].intercalate (u.hosts.map (·.text))

def location : List Char :=
  match u.database with
  | some database => u.segment ++ '/' :: database.toList
  | none => u.segment

def rest : List Char :=
  match u.query with
  | some query => u.location ++ '?' :: query.text
  | none => u.location

def text : String := String.ofList (u.opening.toList ++ u.rest)

/-- The parts of the URL as they are read. -/
def parts : UrlParts where
  scheme := u.scheme
  hosts := u.hosts.map (·.host)
  database := u.database
  parameters := (u.query.map (·.parameters)).getD ∅

theorem allBlank_segment : allBlank u.segment = false := by
  obtain ⟨w, hosts, hw⟩ := List.exists_cons_of_ne_nil u.hosts_ne_nil
  rw [segment, hw, List.map_cons]
  exact allBlank_intercalate w.allBlank_text

theorem sealed_segment : Sealed '/' u.segment := by
  refine Sealed.intercalate (by decide) fun p hp => ?_
  obtain ⟨w, _, rfl⟩ := List.mem_map.mp hp
  exact w.sealed_text (by decide)

/-- The hosts of the list are the written ones, in their order. -/
theorem readList_segment :
    Host.readList (String.ofList u.segment) = .ok (u.hosts.map (·.host)) := by
  have hblank : allBlank (String.ofList u.segment).toList = false := by
    rw [String.toList_ofList]
    exact u.allBlank_segment
  have htokens : tokens ',' u.segment = u.hosts.map (·.text) := by
    refine tokens_intercalate rfl fun p hp => ?_
    obtain ⟨w, _, rfl⟩ := List.mem_map.mp hp
    exact ⟨w.sealed_text (by decide), w.text_ne_nil⟩
  rw [Host.readList_eq_ok hblank, String.toList_ofList, htokens, List.forall₂_map_left_iff,
    List.forall₂_map_right_iff, List.forall₂_same]
  exact fun w _ => w.ofToken_text

theorem splitPath_location :
    UrlParts.splitPath u.location = (u.segment, u.database.map String.toList) := by
  unfold location UrlParts.splitPath
  cases hdatabase : u.database with
  | none =>
      dsimp only
      rw [u.sealed_segment.uncut]
      rfl
  | some database =>
      -- The hosts leave no mark open, so the first slash that counts is the one behind them.
      have hne : database.toList ≠ [] := fun hnil =>
        (u.database_free database hdatabase).1 (String.toList_eq_nil_iff.mp hnil)
      dsimp only
      rw [u.sealed_segment.cut?_append rfl]
      split
      · next heq => exact absurd (Prod.mk.inj (Option.some.inj heq)).2 hne
      · next heq =>
        cases heq
        rfl
      · next heq => cases heq

theorem not_mem_location : '?' ∉ u.location := by
  have hsegment : '?' ∉ u.segment := by
    refine not_mem_intercalate (by decide) fun p hp => ?_
    obtain ⟨w, _, rfl⟩ := List.mem_map.mp hp
    exact w.not_mem_text
  unfold location
  split
  · next database hdatabase =>
    have hfree := (u.database_free database hdatabase).2
    simp [hsegment, hfree]
  · exact hsegment

theorem splitQuery_rest :
    UrlParts.splitQuery u.rest = (u.location, u.query.map (·.text)) := by
  unfold rest UrlParts.splitQuery
  cases u.query with
  | none =>
      dsimp only
      rw [span_eq_self u.not_mem_location]
      rfl
  | some query =>
      dsimp only
      rw [span_append u.not_mem_location]
      rfl

theorem ofRest_rest : UrlParts.ofRest u.scheme u.rest = .ok u.parts := by
  rw [UrlParts.ofRest_eq_ok, splitQuery_rest, splitPath_location]
  refine ⟨rfl, u.readList_segment, ?_, ?_⟩
  · cases hdatabase : u.database <;> simp [parts, hdatabase]
  · cases hquery : u.query with
    | none => simp [parts, hquery]
    | some query => simp [parts, hquery, query.parameters_text]

/-- Reading gives back what is written: the scheme, the hosts with their ports
and attributes, the database and the parameters, all in their order. -/
theorem read_text : UrlParts.read u.text = .ok (some u.parts) := by
  have hopens : UrlParts.Opens u.text u.scheme u.rest :=
    ⟨u.opening.toList, String.toList_ofList, u.opening_spells⟩
  rw [UrlParts.read_of_opens hopens, u.ofRest_rest]
  rfl

/-- A descriptor whose values hold every other delimiter and each the other mark. -/
def quotedHost : WrittenHost :=
  .descriptor
    [{ key := "Host", mark := '\'', value := "a,b/c:(d)=\"&"
       key_ne_empty := by decide, key_trimmed := by decide, key_free := by decide
       mark_isQuote := rfl, value_free := by decide },
     { key := "type", mark := '"', value := "it's"
       key_ne_empty := by decide, key_trimmed := by decide, key_free := by decide
       mark_isQuote := rfl, value_free := by decide }]

def quotedUrl : WrittenUrl where
  scheme := .balanced
  opening := "MySQL:LoadBalance://"
  hosts :=
    [.plain { name := "db1", port := some "33:07"
              name_free := by decide, name_not_blank := by decide, not_descriptor := by decide
              port_free := by rintro _ ⟨⟩; decide },
     quotedHost]
  database := some "it's/shop"
  query := some { parameters := .ofList [("a?", "\u00e4 &=")], key_free := by decide,
                  value_ne_empty := by decide }
  opening_spells := by decide
  hosts_ne_nil := by decide
  database_free := by rintro _ ⟨⟩; decide

theorem read_quotedUrl :
    UrlParts.read ("MySQL:LoadBalance://db1:33:07,address=(Host='a,b/c:(d)=\"&')" ++
        "(type=\"it's\")/it's/shop?a?=%C3%A4%20%26%3D") =
      .ok (some
        { scheme := .balanced
          hosts := [.plain "db1" "33:07",
            ⟨"address=(Host='a,b/c:(d)=\"&')(type=\"it's\")", "3306",
              some (.ofList [("HOST", "a,b/c:(d)=\"&"), ("type", "it's")])⟩]
          database := some "it's/shop"
          parameters := .ofList [("a?", "\u00e4 &=")] }) := by
  have htext : quotedUrl.text = "MySQL:LoadBalance://db1:33:07,address=(Host='a,b/c:(d)=\"&')" ++
      "(type=\"it's\")/it's/shop?a?=%C3%A4%20%26%3D" := by decide +kernel
  rw [← htext, quotedUrl.read_text]
  decide +kernel

end WrittenUrl

end DbRoute
