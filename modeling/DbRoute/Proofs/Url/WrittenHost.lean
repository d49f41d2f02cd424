import DbRoute.Proofs.Descriptor

/-!
# Hosts as a URL writes them

A plain host is a name and perhaps a port, a descriptor a list of attributes
whose values stand in quotation marks. A value may hold all that separates
anything in a URL but the question mark and the mark around it. Each host is
read back from its text, and its text is sealed for what separates hosts.
-/

namespace DbRoute

open Text

/-! ## Attributes -/

/-- An attribute of a descriptor, its value between two marks. -/
structure WrittenAttribute where
  key : String
  mark : Char
  value : String
  key_ne_empty : key ≠ ""
  key_trimmed : trim key.toList = key.toList
  key_free : FreeOf ['(', '\'', '"', '=', ')', ',', '/', '?'] key.toList
  mark_isQuote : isQuote mark = true
  value_free : mark ∉ value.toList ∧ '?' ∉ value.toList

namespace WrittenAttribute

variable {d : Char} (a : WrittenAttribute)

def quoted : List Char := a.mark :: a.value.toList ++ [a.mark]

/-- The attribute as it stands between parentheses. -/
def inner : List Char := a.key.toList ++ '=' :: a.quoted

def group : List Char := '(' :: (a.inner ++ [')'])

/-- The attribute as it is read. -/
def pair : Pair := (String.ofList (Host.keyForm a.key.toList), a.value)

theorem sealed_quoted (d : Char) : Sealed d a.quoted :=
  Sealed.of_quoted d a.mark_isQuote a.value_free.1

theorem sealed_group (hd : d ∈ [',', '/']) : Sealed d a.group := by
  have hne : ∀ c ∈ ['(', '=', ')'], isQuote c = false ∧ c ≠ d := by
    simp only [List.mem_cons, List.not_mem_nil, or_false] at hd
    rcases hd with rfl | rfl <;> simp [isQuote]
  have hkey : Sealed d a.key.toList := .of_freeOf (by decide) (by decide) hd a.key_free
  have hclose : Sealed d [')'] := .cons (hne ')' (by decide)) ⟨rfl, rfl⟩
  have hinner : Sealed d a.inner := hkey.append (.cons (hne '=' (by decide)) (a.sealed_quoted d))
  exact .cons (hne '(' (by decide)) (hinner.append hclose)

theorem not_mem_group : '?' ∉ a.group := by
  have hkey : '?' ∉ a.key.toList := a.key_free.not_mem (by decide)
  have hmark : '?' ≠ a.mark := by
    rcases isQuote_iff.mp a.mark_isQuote with h | h <;> rw [h] <;> decide
  simp [group, inner, quoted, hkey, hmark, a.value_free.2]

/-- The attribute as a pair without blanks. -/
def asPair : WrittenPair where
  key := a.key
  value := .quoted a.mark a.value a.mark_isQuote a.value_free.1
  beforeKey := .none
  afterKey := .none
  beforeValue := .none
  afterValue := .none
  key_ne_empty := a.key_ne_empty
  key_trimmed := a.key_trimmed
  key_free := a.key_free.mono (by decide)

theorem inner_asPair : a.asPair.inner = a.inner := by
  simp [WrittenPair.inner, WrittenPair.core, WrittenValue.text, inner, quoted, asPair]

theorem pair_asPair : a.asPair.pair = a.pair := by
  rw [pair, ofList_keyForm]
  rfl

end WrittenAttribute

/-! ## Descriptors -/

/-- A descriptor with the given attributes, as it is written. -/
def descriptorText (attributes : List WrittenAttribute) : List Char :=
  Host.descriptorMark.toList ++ attributes.flatMap (·.group)

namespace Descriptor

variable {d : Char} (attributes : List WrittenAttribute)

theorem isDescriptorText_descriptorText : Host.isDescriptorText (descriptorText attributes) = true :=
  startsIgnoringCase_append (by decide) _

theorem sealed_descriptorText (hd : d ∈ [',', '/']) : Sealed d (descriptorText attributes) := by
  have hmark : Sealed d Host.descriptorMark.toList := by
    simp only [List.mem_cons, List.not_mem_nil, or_false] at hd
    rcases hd with rfl | rfl <;> exact Sealed.of_free (by decide)
  refine hmark.append ?_
  induction attributes with
  | nil => exact ⟨rfl, rfl⟩
  | cons a attributes ih => exact (a.sealed_group hd).append ih

theorem not_mem_descriptorText : '?' ∉ descriptorText attributes := by
  have hmark : '?' ∉ Host.descriptorMark.toList := by decide
  have hgroups : '?' ∉ attributes.flatMap (·.group) := by
    rw [List.mem_flatMap]
    rintro ⟨a, _, ha⟩
    exact a.not_mem_group ha
  exact fun h => (List.mem_append.mp h).elim hmark hgroups

theorem trimStart_descriptorText :
    trimStart (descriptorText attributes) = descriptorText attributes := by
  refine trimStart_eq_self.mpr ?_
  rintro c ⟨⟩
  decide

theorem trim_descriptorText : trim (descriptorText attributes) = descriptorText attributes := by
  -- Whatever stands in front of the groups, the last of them ends in a parenthesis.
  have hgroups : ∀ s : List Char, (∀ c ∈ s.getLast?, isBlank c = false) →
      ∀ c ∈ (s ++ attributes.flatMap (·.group)).getLast?, isBlank c = false := by
    induction attributes with
    | nil => simp
    | cons a attributes ih =>
        intro s _
        rw [List.flatMap_cons, ← List.append_assoc]
        refine ih _ ?_
        intro c hc
        have hlast : (s ++ a.group).getLast? = some ')' := by
          rw [WrittenAttribute.group, ← List.cons_append, ← List.append_assoc, List.getLast?_concat]
        rw [hlast] at hc
        cases hc
        decide
  have hmark : ∀ c ∈ Host.descriptorMark.toList.getLast?, isBlank c = false := by
    rintro c ⟨⟩
    decide
  rw [trim, trimStart_descriptorText]
  exact trimEnd_eq_self.mpr (hgroups _ hmark)

theorem allBlank_descriptorText : allBlank (descriptorText attributes) = false := rfl

theorem groupsText_asPair :
    groupsText (attributes.map fun a => (.none, .pair a.asPair)) =
      attributes.flatMap (·.group) := by
  rw [groupsText, List.flatMap_map]
  refine congrArg (attributes.flatMap ·) (funext fun a => ?_)
  simp only [WrittenGroup.inner, a.inner_asPair]
  rfl

/-- The attributes of a descriptor are those that are written, in their order. -/
theorem attributesOf_descriptorText :
    Host.attributesOf (descriptorText attributes) = .ofList (attributes.map (·.pair)) := by
  have hmark : sameIgnoringCase Host.descriptorMark.toList Host.descriptorMark.toList = true := by
    decide
  have hread := attributesOf_groupsText hmark (attributes.map fun a => (.none, .pair a.asPair))
    (by cases attributes <;> rintro _ ⟨⟩; rfl) .none
  have hpairs : (attributes.map fun a => (Blanks.none, WrittenGroup.pair a.asPair)).filterMap
      (·.2.pair?) = attributes.map (·.pair) := by
    rw [List.filterMap_map, ← List.filterMap_eq_map]
    exact List.filterMap_congr fun a _ => congrArg some a.pair_asPair
  rwa [groupsText_asPair, Blanks.val_none, List.append_nil, hpairs] at hread

theorem ofToken_descriptorText :
    Host.ofToken (String.ofList (descriptorText attributes)) =
      .ok ⟨String.ofList (descriptorText attributes), toString defaultPort,
        some (.ofList (attributes.map (·.pair)))⟩ := by
  have hmark := isDescriptorText_descriptorText attributes
  have hsplit : Host.splitPort (String.ofList (descriptorText attributes)) =
      .ok (String.ofList (descriptorText attributes), none) := by
    have htext := String.toList_ofList (l := descriptorText attributes)
    rw [Host.splitPort_of_descriptor (by rwa [htext, trimStart_descriptorText]), htext,
      trim_descriptorText]
  rw [Host.ofToken, hsplit]
  change Except.ok _ = _
  rw [String.toList_ofList, allBlank_descriptorText, hmark, attributesOf_descriptorText]
  rfl

end Descriptor

/-! ## Plain hosts -/

/-- A plain host as it is written, without blanks alone for a name. -/
structure PlainHost where
  name : String
  port : Option String
  name_free : FreeOf [',', '/', '?', ':', '\'', '"'] name.toList
  name_not_blank : allBlank name.toList = false
  not_descriptor : Host.isDescriptorText (trimStart name.toList) = false
  port_free : ∀ p ∈ port, p ≠ "" ∧ FreeOf [',', '/', '?', '\'', '"'] p.toList

namespace PlainHost

variable {d : Char} (h : PlainHost)

def text : List Char :=
  match h.port with
  | some port => h.name.toList ++ ':' :: port.toList
  | none => h.name.toList

theorem text_free : FreeOf [',', '/', '?', '\'', '"'] h.text := by
  have hname : FreeOf [',', '/', '?', '\'', '"'] h.name.toList := h.name_free.mono (by decide)
  unfold text
  split
  · next port hport =>
    have hcolon : FreeOf [',', '/', '?', '\'', '"'] [':'] := by decide
    exact hname.append (hcolon.append (h.port_free port hport).2)
  · exact hname

theorem sealed_text (hd : d ∈ [',', '/']) : Sealed d h.text :=
  .of_freeOf (by decide) (by decide) hd h.text_free

theorem isDescriptorText_name : Host.isDescriptorText h.name.toList = false := by
  refine Bool.eq_false_iff.mpr fun hname => ?_
  have htrim := Host.trimStart_of_isDescriptorText hname
  have hnot := h.not_descriptor
  rw [htrim, hname] at hnot
  cases hnot

theorem isDescriptorText_trimStart_text : Host.isDescriptorText (trimStart h.text) = false := by
  unfold text
  split
  · exact Host.isDescriptorText_trimStart_colon h.name_not_blank h.not_descriptor _
  · exact h.not_descriptor

theorem allBlank_text : allBlank h.text = false := by
  unfold text
  split
  · rw [allBlank, List.all_append, ← allBlank, h.name_not_blank, Bool.false_and]
  · exact h.name_not_blank

theorem splitPort_text : Host.splitPort (String.ofList h.text) = .ok (h.name, h.port) := by
  have hcolon : ':' ∉ h.name.toList := h.name_free.not_mem (by decide)
  have hnot := h.isDescriptorText_trimStart_text
  rw [← String.toList_ofList (l := h.text)] at hnot
  cases hport : h.port with
  | none =>
      have htext : String.ofList h.text = h.name := by rw [text, hport, String.ofList_toList]
      rw [htext] at hnot ⊢
      exact Host.splitPort_of_no_colon hnot hcolon
  | some port =>
      have htext : (String.ofList h.text).toList = h.name.toList ++ ':' :: port.toList := by
        rw [String.toList_ofList, text, hport]
      have hne : port.toList ≠ [] := fun hnil =>
        (h.port_free port hport).1 (String.toList_eq_nil_iff.mp hnil)
      rw [Host.splitPort_of_colon hnot htext hcolon, if_neg hne, String.ofList_toList,
        String.ofList_toList]

theorem ofToken_text :
    Host.ofToken (String.ofList h.text) =
      .ok (.plain h.name (h.port.getD (toString defaultPort))) := by
  rw [Host.ofToken, h.splitPort_text]
  change Except.ok _ = _
  rw [h.name_not_blank, h.isDescriptorText_name]
  rfl

end PlainHost

/-! ## Hosts of either kind -/

inductive WrittenHost where
  | plain (h : PlainHost)
  | descriptor (attributes : List WrittenAttribute)

namespace WrittenHost

variable {d : Char}

def text : WrittenHost → List Char
  | plain h => h.text
  | descriptor attributes => descriptorText attributes

/-- The host as it is read. -/
def host : WrittenHost → Host
  | plain h => .plain h.name (h.port.getD (toString defaultPort))
  | descriptor attributes =>
      ⟨String.ofList (descriptorText attributes), toString defaultPort,
        some (.ofList (attributes.map (·.pair)))⟩

theorem ofToken_text : ∀ w : WrittenHost, Host.ofToken (String.ofList w.text) = .ok w.host
  | plain h => h.ofToken_text
  | descriptor attributes => Descriptor.ofToken_descriptorText attributes

theorem sealed_text (hd : d ∈ [',', '/']) : ∀ w : WrittenHost, Sealed d w.text
  | plain h => h.sealed_text hd
  | descriptor attributes => Descriptor.sealed_descriptorText attributes hd

theorem not_mem_text : ∀ w : WrittenHost, '?' ∉ w.text
  | plain h => h.text_free.not_mem (by decide)
  | descriptor attributes => Descriptor.not_mem_descriptorText attributes

theorem allBlank_text : ∀ w : WrittenHost, allBlank w.text = false
  | plain h => h.allBlank_text
  | descriptor attributes => Descriptor.allBlank_descriptorText attributes

theorem text_ne_nil (w : WrittenHost) : w.text ≠ [] := by
  intro h
  have hblank := w.allBlank_text
  rw [h] at hblank
  cases hblank

end WrittenHost

end DbRoute
