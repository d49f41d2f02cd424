import DbRoute.Proofs.Host

/-!
# Descriptors as they are written

A descriptor is its mark, in whatever case, and groups in parentheses, with
blanks wherever they do not count. A group says a value for a key, bare or
between marks, or it says nothing. Nothing but its own mark ends a value between
marks, so that it may hold what separates groups and what separates a key from
its value. The attributes of the descriptor are what its groups say, put one
after the other under the keys in their usual form.
-/

namespace DbRoute

open Text

/-! ## Keys -/

/-- The keys of the address, as they are written in the end. -/
def capitalForms : List String := ["HOST", "DBNAME", "PORT", "PROTOCOL", "PATH"]

/-- The keys of the credentials, as they are written in the end. -/
def smallForms : List String := ["user", "password"]

/-- The form that a key has up to case, or else the key itself. -/
def usualKey (key : String) : String :=
  ((capitalForms ++ smallForms).find? fun form =>
    sameIgnoringCase form.toList key.toList).getD key

/-- A search without case among names that are all spelled alike finds the
spelling of what is searched for. -/
theorem find?_sameIgnoringCase {names : List String} {spell : List Char → List Char} {key : String}
    (hspell : ∀ name ∈ names, sameIgnoringCase name.toList key.toList = true →
      name.toList = spell key.toList) :
    names.find? (fun name => sameIgnoringCase name.toList key.toList) =
      if names.any (fun name => sameIgnoringCase name.toList key.toList) then
        some (String.ofList (spell key.toList))
      else none := by
  cases hfind : names.find? fun name => sameIgnoringCase name.toList key.toList with
  | none =>
      have hnot : names.any (fun name => sameIgnoringCase name.toList key.toList) = false := by
        simpa using List.find?_eq_none.mp hfind
      rw [hnot, if_neg Bool.false_ne_true]
  | some name =>
      have hmem := List.mem_of_find?_eq_some hfind
      have hsame := List.find?_some hfind
      rw [if_pos (List.any_eq_true.mpr ⟨name, hmem, hsame⟩), ← hspell name hmem hsame,
        String.ofList_toList]

/-- It does not matter in which case the names of a list are spelled. -/
theorem any_sameIgnoringCase_congr {names others : List String}
    (h : names.map (fun name => name.toList.map Char.toLower) =
      others.map fun name => name.toList.map Char.toLower) (key : List Char) :
    names.any (fun name => sameIgnoringCase name.toList key) =
      others.any fun name => sameIgnoringCase name.toList key := by
  have hany : ∀ l : List String, l.any (fun name => sameIgnoringCase name.toList key) =
      (l.map fun name => name.toList.map Char.toLower).any (· == key.map Char.toLower) := by
    intro l
    rw [List.any_map]
    rfl
  rw [hany, h, ← hany]

theorem ofList_keyForm (key : String) :
    String.ofList (Host.keyForm key.toList) = usualKey key := by
  have hcapital : ∀ form ∈ capitalForms, sameIgnoringCase form.toList key.toList = true →
      form.toList = key.toList.map Char.toUpper := by
    intro form hform hsame
    have hupper : ∀ form ∈ capitalForms, form.toList.map Char.toUpper = form.toList := by decide
    rw [← map_toUpper_of_sameIgnoringCase hsame, hupper form hform]
  have hsmall : ∀ form ∈ smallForms, sameIgnoringCase form.toList key.toList = true →
      form.toList = key.toList.map Char.toLower := by
    intro form hform hsame
    have hlower : ∀ form ∈ smallForms, form.toList.map Char.toLower = form.toList := by decide
    rw [← sameIgnoringCase_iff.mp hsame, hlower form hform]
  have hcapitals : capitalForms.any (fun form => sameIgnoringCase form.toList key.toList) =
      Host.capitalKeys.any fun name => sameIgnoringCase name.toList key.toList :=
    any_sameIgnoringCase_congr (by decide) _
  have hsmalls : smallForms.any (fun form => sameIgnoringCase form.toList key.toList) =
      Host.smallKeys.any fun name => sameIgnoringCase name.toList key.toList := rfl
  rw [usualKey, List.find?_append, find?_sameIgnoringCase hcapital,
    find?_sameIgnoringCase hsmall, hcapitals, hsmalls, Host.keyForm]
  split
  · rfl
  · split
    · rfl
    · rw [String.ofList_toList]
      rfl

/-! ## Values -/

/-- Blanks, or nothing at all. -/
abbrev Blanks := { s : List Char // allBlank s = true }

namespace Blanks

def none : Blanks := ⟨[], rfl⟩

@[simp] theorem val_none : none.val = [] := rfl

def space : Blanks := ⟨[' '], rfl⟩

theorem sealed {d : Char} (hd : isBlank d = false) (b : Blanks) : Sealed d b.val :=
  .of_allBlank hd b.property

end Blanks

/-- A value as it is written, bare or between two marks. -/
inductive WrittenValue where
  | bare (value : String) (ne_empty : value ≠ "") (trimmed : trim value.toList = value.toList)
      (free : FreeOf ['\'', '"', '=', ')'] value.toList)
  | quoted (mark : Char) (value : String) (isQuote_mark : isQuote mark = true)
      (free : mark ∉ value.toList)

namespace WrittenValue

variable {d : Char}

def value : WrittenValue → String
  | bare value .. => value
  | quoted _ value .. => value

def text : WrittenValue → List Char
  | bare value .. => value.toList
  | quoted mark value .. => mark :: value.toList ++ [mark]

theorem text_ne_nil : ∀ v : WrittenValue, v.text ≠ []
  | bare _ ne_empty .. => fun h => ne_empty (String.toList_eq_nil_iff.mp h)
  | quoted .. => List.cons_ne_nil _ _

theorem trim_text : ∀ v : WrittenValue, trim v.text = v.text
  | bare _ _ trimmed _ => trimmed
  | quoted mark value isQuote_mark _ => by
      have hmark : trim [mark] = [mark] := by
        apply trim_eq_self_of_forall
        simpa using isBlank_of_isQuote isQuote_mark
      exact trim_append_eq_self hmark (List.cons_ne_nil _ _) hmark (List.cons_ne_nil _ _) _

theorem sealed_text (hd : d ∈ ['=', ')']) : ∀ v : WrittenValue, Sealed d v.text
  | bare _ _ _ free => .of_freeOf (by decide) (by decide) hd free
  | quoted _ _ isQuote_mark free => Sealed.of_quoted d isQuote_mark free

theorem withoutMarks_text : ∀ v : WrittenValue, withoutMarks v.text = v.value.toList
  | bare _ _ _ free => withoutMarks_of_free (free.mono (by decide))
  | quoted _ _ isQuote_mark _ => withoutMarks_quoted isQuote_mark _

end WrittenValue

/-! ## Groups -/

/-- What neither a key nor a group that says nothing may hold. -/
def groupMarks : List Char := ['\'', '"', '=', '(', ')']

theorem sealed_of_free {d : Char} {s : List Char} (hd : d ∈ ['=', ')']) (h : FreeOf groupMarks s) :
    Sealed d s :=
  .of_freeOf (by decide) (by decide) hd h

/-- A key and its value, with blanks around both. -/
structure WrittenPair where
  key : String
  value : WrittenValue
  beforeKey : Blanks
  afterKey : Blanks
  beforeValue : Blanks
  afterValue : Blanks
  key_ne_empty : key ≠ ""
  key_trimmed : trim key.toList = key.toList
  key_free : FreeOf groupMarks key.toList

namespace WrittenPair

variable (p : WrittenPair)

/-- The text from the key to the value. -/
def core : List Char :=
  p.key.toList ++ (p.afterKey.val ++ '=' :: p.beforeValue.val) ++ p.value.text

/-- All that stands between the parentheses. -/
def inner : List Char := p.beforeKey.val ++ p.core ++ p.afterValue.val

/-- The attribute as it is read. -/
def pair : Pair := (usualKey p.key, p.value.value)

theorem key_toList_ne_nil : p.key.toList ≠ [] := fun h =>
  p.key_ne_empty (String.toList_eq_nil_iff.mp h)

theorem sealed_inner : Sealed ')' p.inner := by
  have hkey : Sealed ')' p.key.toList := sealed_of_free (by decide) p.key_free
  have hequals : Sealed ')' ('=' :: p.beforeValue.val) := .cons (by decide) (p.beforeValue.sealed rfl)
  have hcore : Sealed ')' p.core :=
    (hkey.append ((p.afterKey.sealed rfl).append hequals)).append (p.value.sealed_text (by decide))
  exact ((p.beforeKey.sealed rfl).append hcore).append (p.afterValue.sealed rfl)

theorem trim_core : trim p.core = p.core :=
  trim_append_eq_self p.key_trimmed p.key_toList_ne_nil p.value.trim_text p.value.text_ne_nil _

theorem core_ne_nil : p.core ≠ [] :=
  List.append_ne_nil_of_right_ne_nil _ p.value.text_ne_nil

theorem trim_inner : trim p.inner = p.core := by
  rw [inner, trim_append_blank _ p.afterValue.property, trim_blank_append p.beforeKey.property,
    p.trim_core]

theorem trimEnd_inner : trimEnd p.inner = p.beforeKey.val ++ p.core := by
  rw [inner, trimEnd_append_blank _ p.afterValue.property, trimEnd_eq_self,
    List.getLast?_append_of_ne_nil _ p.core_ne_nil]
  exact (trim_eq_self.mp p.trim_core).2

theorem head?_core : ∀ c ∈ p.core.head?, c ≠ '(' := by
  rw [core, List.append_assoc, List.head?_append_of_ne_nil _ p.key_toList_ne_nil]
  rintro c hc rfl
  exact p.key_free.not_mem (by decide) (List.mem_of_mem_head? hc)

/-- Blanks in front of the key do not count, and the only equals sign outside
quotation is the one behind it. -/
theorem trimmedTokens_core (b : Blanks) :
    trimmedTokens '=' (b.val ++ p.core) = [p.key.toList, p.value.text] := by
  have htext : b.val ++ p.core =
      (b.val ++ p.key.toList ++ p.afterKey.val) ++ '=' :: (p.beforeValue.val ++ p.value.text) := by
    simp [core]
  have hfront : Sealed '=' (b.val ++ p.key.toList ++ p.afterKey.val) :=
    ((b.sealed rfl).append (sealed_of_free (by decide) p.key_free)).append (p.afterKey.sealed rfl)
  have hback : Sealed '=' (p.beforeValue.val ++ p.value.text) :=
    (p.beforeValue.sealed rfl).append (p.value.sealed_text (by decide))
  have hne : p.beforeValue.val ++ p.value.text ≠ [] :=
    List.append_ne_nil_of_right_ne_nil _ p.value.text_ne_nil
  rw [trimmedTokens, htext, hfront.tokens_append rfl, hback.tokens_eq hne, List.map_cons,
    List.map_singleton, trim_append_blank _ p.afterKey.property, trim_blank_append b.property,
    p.key_trimmed, trim_blank_append p.beforeValue.property, p.value.trim_text]

theorem attribute?_paren_core (b : Blanks) :
    Host.attribute? ('(' :: (b.val ++ p.core)) = some p.pair := by
  rw [Host.attribute?_cons_paren, p.trimmedTokens_core b]
  dsimp only
  rw [ofList_keyForm, p.value.withoutMarks_text, String.ofList_toList]
  rfl

end WrittenPair

/-- What stands between the parentheses of a group that says nothing: a text,
and perhaps an equals sign with nothing but blanks behind it. -/
structure WrittenFlag where
  text : List Char
  afterEquals : Option Blanks
  text_free : FreeOf groupMarks text

namespace WrittenFlag

variable (f : WrittenFlag)

def inner : List Char :=
  match f.afterEquals with
  | some b => f.text ++ '=' :: b.val
  | none => f.text

theorem sealed_inner : Sealed ')' f.inner := by
  have htext : Sealed ')' f.text := sealed_of_free (by decide) f.text_free
  unfold inner
  split
  · next b _ => exact htext.append (.cons (by decide) (b.sealed rfl))
  · exact htext

end WrittenFlag

/-- An equals sign at the end, if any, and nothing else to split a group at. -/
inductive SaysNothing : List Char → Prop where
  | text {s : List Char} (free : FreeOf groupMarks s) : SaysNothing s
  | equals {s : List Char} (free : FreeOf groupMarks s) : SaysNothing (s ++ ['='])

namespace SaysNothing

variable {s : List Char}

theorem length_trimmedTokens_le (h : SaysNothing s) : (trimmedTokens '=' s).length ≤ 1 := by
  rw [trimmedTokens, List.length_map]
  cases h with
  | text free =>
      have hsealed : Sealed '=' s := sealed_of_free (by decide) free
      rw [tokens_of_uncut hsealed.uncut]
      split <;> simp
  | @equals t free =>
      have hsealed : Sealed '=' t := sealed_of_free (by decide) free
      have htokens : tokens '=' (t ++ ['=']) = [t] := hsealed.tokens_append rfl []
      rw [htokens]
      rfl

theorem attribute?_paren (h : SaysNothing s) : Host.attribute? ('(' :: s) = none := by
  have hlength := h.length_trimmedTokens_le
  rw [Host.attribute?_cons_paren]
  split
  · next hpair =>
    rw [hpair] at hlength
    simp at hlength
  · rfl

theorem head? (h : SaysNothing s) : ∀ c ∈ s.head?, c ≠ '(' := by
  rintro c hc rfl
  have hmem := List.mem_of_mem_head? hc
  cases h with
  | text free => exact free '(' hmem (by decide)
  | equals free => exact free '(' (by simpa using hmem) (by decide)

end SaysNothing

namespace WrittenFlag

variable (f : WrittenFlag)

theorem saysNothing_trimEnd : SaysNothing (trimEnd f.inner) := by
  unfold inner
  split
  · next b _ =>
    have hend : trimEnd (f.text ++ '=' :: b.val) = f.text ++ ['='] := by
      rw [← List.singleton_append, ← List.append_assoc, trimEnd_append_blank _ b.property,
        trimEnd_eq_self]
      simp [isBlank]
    rw [hend]
    exact .equals f.text_free
  · exact .text (f.text_free.subset (trimEnd_subset _))

theorem saysNothing_trim : SaysNothing (trim f.inner) := by
  unfold inner
  split
  · next b _ =>
    have htrim : trim (f.text ++ '=' :: b.val) = trimStart f.text ++ ['='] := by
      rw [trim, trimStart_append_cons rfl, ← List.singleton_append, ← List.append_assoc,
        trimEnd_append_blank _ b.property, trimEnd_eq_self]
      simp [isBlank]
    rw [htrim]
    exact .equals (f.text_free.subset (trimStart_subset _))
  · exact .text (f.text_free.subset (List.Subset.trans (trimEnd_subset _) (trimStart_subset _)))

end WrittenFlag

inductive WrittenGroup where
  | pair (p : WrittenPair)
  | flag (f : WrittenFlag)

namespace WrittenGroup

/-- All that stands between the parentheses. -/
def inner : WrittenGroup → List Char
  | pair p => p.inner
  | flag f => f.inner

/-- The attribute that a group says, if it says any. -/
def pair? : WrittenGroup → Option Pair
  | pair p => some p.pair
  | flag _ => none

theorem sealed_inner : ∀ g : WrittenGroup, Sealed ')' g.inner
  | pair p => p.sealed_inner
  | flag f => f.sealed_inner

/-- The first group is read without its parenthesis. -/
theorem attribute?_trim : ∀ g : WrittenGroup, Host.attribute? (trim g.inner) = g.pair?
  | pair p => by
      rw [inner, p.trim_inner, ← Host.attribute?_paren p.head?_core]
      exact p.attribute?_paren_core .none
  | flag f => by
      rw [inner, ← Host.attribute?_paren f.saysNothing_trim.head?]
      exact f.saysNothing_trim.attribute?_paren

/-- The other groups are read with their parentheses and what is in front of them. -/
theorem attribute?_trim_paren (b : Blanks) :
    ∀ g : WrittenGroup, Host.attribute? (trim (b.val ++ '(' :: g.inner)) = g.pair?
  | pair p => by
      rw [trim_blank_append b.property, trim_cons rfl, inner, p.trimEnd_inner]
      exact p.attribute?_paren_core p.beforeKey
  | flag f => by
      rw [trim_blank_append b.property, trim_cons rfl, inner]
      exact f.saysNothing_trimEnd.attribute?_paren

end WrittenGroup

/-! ## Descriptors -/

/-- Groups in parentheses, each behind the blanks in front of it. -/
def groupsText (groups : List (Blanks × WrittenGroup)) : List Char :=
  groups.flatMap fun g => g.1.val ++ '(' :: (g.2.inner ++ [')'])

theorem filterMap_groupsText (groups : List (Blanks × WrittenGroup)) (trailing : Blanks) :
    (trimmedTokens ')' (groupsText groups ++ trailing.val)).filterMap Host.attribute? =
      groups.filterMap (·.2.pair?) := by
  induction groups with
  | nil =>
      have htokens := tokens_of_uncut (trailing.sealed (d := ')') rfl).uncut
      have htrim : trim trailing.val = [] := by
        rw [trim, trimStart_of_allBlank trailing.property]
        rfl
      rw [groupsText, List.flatMap_nil, List.nil_append, trimmedTokens, htokens]
      split
      · rfl
      · rw [List.map_singleton, htrim]
        rfl
  | cons g groups ih =>
      have htext : groupsText (g :: groups) ++ trailing.val =
          (g.1.val ++ '(' :: g.2.inner) ++ ')' :: (groupsText groups ++ trailing.val) := by
        simp [groupsText]
      have hsealed : Sealed ')' (g.1.val ++ '(' :: g.2.inner) :=
        (g.1.sealed rfl).append (.cons (by decide) g.2.sealed_inner)
      rw [trimmedTokens] at ih ⊢
      rw [htext, hsealed.tokens_append rfl, List.map_cons, List.filterMap_cons, List.filterMap_cons,
        g.2.attribute?_trim_paren g.1, ih]

theorem descriptorBody_append {opening : List Char}
    (h : sameIgnoringCase opening Host.descriptorMark.toList = true) (t : List Char) :
    Host.descriptorBody (opening ++ t) = ((cutAt? 1 t).map Prod.snd).getD [] := by
  rw [Host.descriptorBody, ← byteSize_of_sameIgnoringCase h,
    cutAt?_byteSize_add_append]
  cases cutAt? 1 t <;> rfl

/-- Nothing but blanks is left of blanks. -/
theorem allBlank_cutAt? {t : List Char} (h : allBlank t = true) (n : Nat) :
    allBlank (((cutAt? n t).map Prod.snd).getD []) = true := by
  cases hcut : cutAt? n t with
  | none => rfl
  | some halves =>
      rw [(cutAt?_eq_some_iff.mp hcut).1, allBlank_append, Bool.and_eq_true] at h
      exact h.2

/-- Groups behind the mark are read one after the other. -/
theorem attributesOf_groupsText {opening : List Char}
    (h : sameIgnoringCase opening Host.descriptorMark.toList = true)
    (groups : List (Blanks × WrittenGroup)) (hfirst : ∀ g ∈ groups.head?, g.1.val = [])
    (trailing : Blanks) :
    Host.attributesOf (opening ++ (groupsText groups ++ trailing.val)) =
      .ofList (groups.filterMap (·.2.pair?)) := by
  have hmark : Host.isDescriptorText (opening ++ (groupsText groups ++ trailing.val)) = true :=
    startsIgnoringCase_append h _
  rw [Host.attributesOf, if_pos hmark, descriptorBody_append h]
  refine congrArg Properties.ofList ?_
  cases groups with
  | nil =>
      -- The mark may swallow the first of the blanks behind it.
      exact filterMap_groupsText [] ⟨_, allBlank_cutAt? trailing.property 1⟩
  | cons g groups =>
      -- It swallows the first parenthesis.
      have htext : groupsText (g :: groups) ++ trailing.val =
          '(' :: (g.2.inner ++ ')' :: (groupsText groups ++ trailing.val)) := by
        simp [groupsText, hfirst g rfl]
      have hcut : ∀ s : List Char, cutAt? 1 ('(' :: s) = some (['('], s) := by
        intro s
        exact cutAt?_byteSize_append ['('] s
      have hrest := filterMap_groupsText groups trailing
      rw [trimmedTokens] at hrest
      rw [htext, hcut, Option.map_some, Option.getD_some, trimmedTokens,
        g.2.sealed_inner.tokens_append rfl, List.map_cons, List.filterMap_cons,
        List.filterMap_cons, g.2.attribute?_trim, hrest]

/-- A descriptor as it is written. -/
structure WrittenDescriptor where
  /-- The mark of a descriptor, its letters in whatever case. -/
  opening : String
  /-- The groups, each with the blanks in front of it. -/
  groups : List (Blanks × WrittenGroup)
  trailing : Blanks
  opening_spells : sameIgnoringCase opening.toList Host.descriptorMark.toList = true
  /-- The first group stands right behind the mark. -/
  first_follows : ∀ g ∈ groups.head?, g.1.val = []

namespace WrittenDescriptor

def text (d : WrittenDescriptor) : List Char :=
  d.opening.toList ++ (groupsText d.groups ++ d.trailing.val)

/-- The attributes of a descriptor are what its groups say, each laid over what is
there from those in front of it. -/
theorem attributesOf_text (d : WrittenDescriptor) :
    Host.attributesOf d.text =
      (d.groups.filterMap (·.2.pair?)).foldl (fun p pair => p.set pair.1 pair.2) ∅ :=
  attributesOf_groupsText d.opening_spells d.groups d.first_follows d.trailing

/-- Blanks everywhere, a value that holds parentheses, an equals sign and the other
mark, a group that says nothing, and a host that is named a second time. -/
def paddedDescriptor : WrittenDescriptor where
  opening := "ADdress="
  groups :=
    [(.none, .pair
        { key := "hOSt", value := .bare "h(1" (by decide) (by decide) (by decide)
          beforeKey := .space, afterKey := .space, beforeValue := .space, afterValue := .space
          key_ne_empty := by decide, key_trimmed := by decide, key_free := by decide }),
      (.space, .flag { text := " on ".toList, afterEquals := some .space, text_free := by decide }),
      (.none, .pair
        { key := "uSEr", value := .quoted '"' " it's)(=" isQuote_double (by decide)
          beforeKey := .none, afterKey := .space, beforeValue := .none, afterValue := .space
          key_ne_empty := by decide, key_trimmed := by decide, key_free := by decide }),
      (.none, .pair
        { key := "HOST", value := .quoted '\'' "" isQuote_single (by decide)
          beforeKey := .none, afterKey := .none, beforeValue := .none, afterValue := .none
          key_ne_empty := by decide, key_trimmed := by decide, key_free := by decide })]
  trailing := .space
  opening_spells := by decide
  first_follows := by rintro _ ⟨⟩; rfl

theorem attributesOf_paddedDescriptor :
    Host.attributesOf "ADdress=( hOSt = h(1 ) ( on = )(uSEr =\" it's)(=\" )(HOST='') ".toList =
      .ofList [("HOST", ""), ("user", " it's)(=")] := by
  have htext : paddedDescriptor.text =
      "ADdress=( hOSt = h(1 ) ( on = )(uSEr =\" it's)(=\" )(HOST='') ".toList := by decide +kernel
  rw [← htext, paddedDescriptor.attributesOf_text]
  decide +kernel

end WrittenDescriptor

end DbRoute
