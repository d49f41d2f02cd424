import DbRoute.Proofs.Layers
import DbRoute.Proofs.Text.Decoding
import DbRoute.Proofs.Text.Pieces
import DbRoute.Url

/-!
# What a query says

To read two queries with an ampersand between them is to read one and to lay the
other over it. So what a query says is told piece by piece: pieces that are no
pairs may stand anywhere and say nothing, of the pairs with one key the last one
counts, and the first one gives the key its place.
-/

namespace DbRoute.Query

open Properties

variable {piece key raw : String} {pieces : List String} {pairs : List Pair}

/-- The piece is a pair, split at its first equals sign, and neither side is empty. -/
structure IsPair (piece key raw : String) : Prop where
  piece_eq : piece = key ++ "=" ++ raw
  key_free : '=' ∉ key.toList
  key_ne : key ≠ ""
  raw_ne : raw ≠ ""

/-- The piece has no equals sign, or nothing in front of the first one, or nothing behind it. -/
def SaysNothing (piece : String) : Prop :=
  '=' ∉ piece.toList ∨ (∃ raw, piece = "=" ++ raw) ∨
    ∃ key, '=' ∉ key.toList ∧ piece = key ++ "="

/-- The pairs among the pieces of a query, in order, their values as they are written. -/
inductive HasPairs : List String → List Pair → Prop
  | nil : HasPairs [] []
  | nothing {piece : String} {pieces : List String} {pairs : List Pair} :
      SaysNothing piece → HasPairs pieces pairs → HasPairs (piece :: pieces) pairs
  | pair {piece key raw : String} {pieces : List String} {pairs : List Pair} :
      IsPair piece key raw → HasPairs pieces pairs → HasPairs (piece :: pieces) ((key, raw) :: pairs)

/-! ## One piece -/

theorem toList_pair (key raw : String) :
    (key ++ "=" ++ raw).toList = key.toList ++ '=' :: raw.toList :=
  Text.toList_joined rfl key raw

theorem isPair_or_saysNothing (piece : String) :
    (∃ key raw, IsPair piece key raw) ∨ SaysNothing piece := by
  by_cases hmem : '=' ∈ piece.toList
  · obtain ⟨key, raw, hsplit, hkey⟩ := List.eq_append_cons_of_mem hmem
    have hpiece : piece = String.ofList key ++ "=" ++ String.ofList raw := by
      apply String.toList_inj.mp
      rw [hsplit, toList_pair, String.toList_ofList, String.toList_ofList]
    rw [← String.toList_ofList (l := key)] at hkey
    by_cases hkey_ne : String.ofList key = ""
    · refine Or.inr (Or.inr (Or.inl ⟨String.ofList raw, ?_⟩))
      rw [hpiece, hkey_ne, String.empty_append]
    · by_cases hraw_ne : String.ofList raw = ""
      · refine Or.inr (Or.inr (Or.inr ⟨String.ofList key, hkey, ?_⟩))
        rw [hpiece, hraw_ne, String.append_empty]
      · exact Or.inl ⟨_, _, hpiece, hkey, hkey_ne, hraw_ne⟩
  · exact Or.inr (Or.inl hmem)

theorem exists_cons_of_ne_empty {s : String} (h : s ≠ "") : ∃ c rest, s.toList = c :: rest :=
  List.exists_cons_of_ne_nil fun hnil => h (String.toList_eq_nil_iff.mp hnil)

theorem IsPair.parameter? (h : IsPair piece key raw) :
    parameter? piece.toList = some (key, Text.formDecode raw) := by
  obtain ⟨c, front, hkey⟩ := exists_cons_of_ne_empty h.key_ne
  obtain ⟨v, back, hraw⟩ := exists_cons_of_ne_empty h.raw_ne
  rw [Query.parameter?, h.piece_eq, toList_pair, Text.span_append h.key_free, hkey, hraw]
  dsimp only
  rw [← hkey, ← hraw, String.ofList_toList, String.ofList_toList]

theorem SaysNothing.parameter? (h : SaysNothing piece) : parameter? piece.toList = none := by
  rcases h with hfree | ⟨raw, rfl⟩ | ⟨key, hkey, rfl⟩
  · rw [Query.parameter?, Text.span_eq_self hfree]
    cases piece.toList <;> rfl
  · have htext : ("=" ++ raw).toList = [] ++ '=' :: raw.toList := String.toList_append
    rw [Query.parameter?, htext, Text.span_append List.not_mem_nil]
  · have htext : (key ++ "=").toList = key.toList ++ '=' :: [] := String.toList_append
    rw [Query.parameter?, htext, Text.span_append hkey]
    cases key.toList <;> rfl

/-! ## All pieces -/

theorem exists_hasPairs (pieces : List String) : ∃ pairs, HasPairs pieces pairs := by
  induction pieces with
  | nil => exact ⟨[], .nil⟩
  | cons piece pieces ih =>
      obtain ⟨pairs, hpairs⟩ := ih
      rcases isPair_or_saysNothing piece with ⟨key, raw, hpair⟩ | hnothing
      · exact ⟨_, .pair hpair hpairs⟩
      · exact ⟨_, .nothing hnothing hpairs⟩

/-- A pair with the value that it stands for. -/
def decoded (pair : Pair) : Pair := (pair.1, Text.formDecode pair.2)

theorem HasPairs.filterMap_parameter? (h : HasPairs pieces pairs) :
    (pieces.map String.toList).filterMap parameter? = pairs.map decoded := by
  induction h with
  | nil => rfl
  | nothing hnothing _ ih => rw [List.map_cons, List.filterMap_cons_none hnothing.parameter?, ih]
  | pair hpair _ ih =>
      rw [List.map_cons, List.filterMap_cons_some hpair.parameter?, ih]
      rfl

theorem lookup_map_decoded (pairs : List Pair) (key : String) :
    (pairs.map decoded).lookup key = (pairs.lookup key).map Text.formDecode := by
  induction pairs with
  | nil => rfl
  | cons pair pairs ih =>
      rw [List.map_cons, decoded, Pairs.lookup_cons_eq, Pairs.lookup_cons_eq, ih]
      split <;> rfl

/-! ## Queries -/

theorem parameters_append (front back : String) :
    parameters (front ++ "&" ++ back) = (parameters front).overlay (parameters back) := by
  have htext : (front ++ "&" ++ back).toList = front.toList ++ '&' :: back.toList :=
    Text.toList_joined rfl front back
  rw [parameters, htext, Text.pieces_append, List.filterMap_append, ofList_append]
  rfl

theorem parameters_intercalate (pieces : List String) :
    parameters ("&".intercalate pieces) = stack (pieces.map parameters) := by
  induction pieces with
  | nil => decide
  | cons piece pieces ih =>
      rw [List.map_cons, stack_cons, ← ih]
      cases pieces with
      | nil =>
          rw [String.intercalate_singleton]
          rfl
      | cons next rest => rw [String.intercalate_cons_cons, parameters_append]

/-- A piece that says nothing may stand anywhere in a query. -/
theorem SaysNothing.parameters_insert (h : SaysNothing piece) (hfree : '&' ∉ piece.toList)
    (front back : List String) :
    parameters ("&".intercalate (front ++ piece :: back)) =
      parameters ("&".intercalate (front ++ back)) := by
  have hpiece : parameters piece = ∅ := by
    rw [parameters, Text.pieces_eq_self hfree, List.filterMap_cons_none h.parameter?]
    rfl
  simp only [parameters_intercalate, List.map_append, List.map_cons, stack_append, stack_cons,
    hpiece, empty_overlay]

/-- The pieces of a query, from one ampersand to the next. -/
def piecesOf (query : String) : List String :=
  (Text.pieces '&' query.toList).map String.ofList

theorem map_toList_piecesOf (query : String) :
    (piecesOf query).map String.toList = Text.pieces '&' query.toList := by
  have hid : String.toList ∘ String.ofList = id := funext fun _ => String.toList_ofList
  rw [piecesOf, List.map_map, hid, List.map_id]

theorem intercalate_piecesOf (query : String) : "&".intercalate (piecesOf query) = query := by
  apply String.toList_inj.mp
  rw [String.toList_intercalate, map_toList_piecesOf]
  exact Text.intercalate_pieces '&' query.toList

theorem not_mem_of_mem_piecesOf {query : String} (h : piece ∈ piecesOf query) :
    '&' ∉ piece.toList := by
  obtain ⟨p, hp, rfl⟩ := List.mem_map.mp h
  rw [String.toList_ofList]
  exact Text.not_mem_of_mem_pieces hp

theorem HasPairs.parameters_eq {query : String} (h : HasPairs (piecesOf query) pairs) :
    parameters query = ofList (pairs.map decoded) := by
  rw [parameters, ← map_toList_piecesOf, h.filterMap_parameter?]

theorem HasPairs.get?_parameters {query : String} (h : HasPairs (piecesOf query) pairs)
    (key : String) :
    (parameters query).get? key = (pairs.reverse.lookup key).map Text.formDecode := by
  rw [h.parameters_eq, get?_ofList, ← List.map_reverse, lookup_map_decoded]

theorem HasPairs.keys_parameters {query : String} (h : HasPairs (piecesOf query) pairs) :
    (parameters query).keys = (Pairs.keys pairs).eraseDups := by
  rw [h.parameters_eq, keys_ofList, Pairs.keys, List.map_map]
  rfl

/-- Two queries with an ampersand between them say what the second says, laid over
what the first says. A piece that is no pair changes nothing, wherever it is put in.
And every query is pieces without ampersands, of whose pairs the last one with a
key gives it its value, what the text behind the first equals sign stands for,
while the keys are as they are written and come in the order of their first pairs.
Of a value every plus sign is a blank and every escape a byte, and a percent sign
that is no escape stands for itself; if what comes of it is no text, the value
stands for itself, plus signs and all. -/
theorem parameters_compose :
    (∀ front back : String,
      parameters (front ++ "&" ++ back) = (parameters front).overlay (parameters back)) ∧
    (∀ (front back : List String) (piece : String), SaysNothing piece → '&' ∉ piece.toList →
      parameters ("&".intercalate (front ++ piece :: back)) =
        parameters ("&".intercalate (front ++ back))) ∧
    (∀ query : String, ∃ pieces pairs, "&".intercalate pieces = query ∧
      (∀ piece ∈ pieces, '&' ∉ piece.toList) ∧ HasPairs pieces pairs ∧
      (parameters query).keys = (Pairs.keys pairs).eraseDups ∧
      ∀ key, (parameters query).get? key = (pairs.reverse.lookup key).map Text.formDecode) ∧
    ∀ raw text : String, Text.formDecode raw = text ↔ Text.StandsFor raw text := by
  refine ⟨parameters_append, ?_, ?_, fun _ _ => Text.formDecode_eq_iff⟩
  · intro front back piece hnothing hfree
    exact hnothing.parameters_insert hfree front back
  · intro query
    obtain ⟨pairs, hpairs⟩ := exists_hasPairs (piecesOf query)
    exact ⟨piecesOf query, pairs, intercalate_piecesOf query,
      fun _ hpiece => not_mem_of_mem_piecesOf hpiece, hpairs, hpairs.keys_parameters,
      hpairs.get?_parameters⟩

/-- A key that comes three times, once without a value, a value with an equals sign
in it, an escape in either case of letters, and a value that is no text. -/
theorem parameters_compose_odd :
    parameters ("&".intercalate (["a=1", "b=x=y"] ++ "a=" :: ["c=%ff+%", "a=%2b+%2B%4g"])) =
      ofList [("a", "+ +%4g"), ("b", "x=y"), ("c", "%ff+%")] := by
  obtain ⟨_, hinsert, _⟩ := parameters_compose
  have hnothing : SaysNothing "a=" := Or.inr (Or.inr ⟨"a", by decide, rfl⟩)
  rw [hinsert _ _ _ hnothing (by decide)]
  decide +kernel

end DbRoute.Query
