import DbRoute.Host
import DbRoute.Proofs.Outcome
import DbRoute.Proofs.Text.AsciiCase
import DbRoute.Proofs.Text.Blank
import DbRoute.Proofs.Text.Quotation

/-!
# Reading hosts

An attribute reads the same with and without the parenthesis in front, and no
blank stands in front of a descriptor. Whether a host is a descriptor, and
whether it is a master, is the same question for its token, for its attributes,
for its name and for its text. A list of hosts that can be read has at least one
host, and no more than there is room for in the text.
-/

namespace DbRoute.Host

open Outcome

variable {segment token name : String} {port? : Option String} {host : Host} {hosts : List Host}
  {s t : List Char}

theorem attribute?_cons_paren (s : List Char) :
    attribute? ('(' :: s) =
      match Text.trimmedTokens '=' s with
      | key :: value :: _ =>
          some (String.ofList (keyForm key), String.ofList (Text.withoutMarks value))
      | _ => none :=
  rfl

theorem attribute?_paren {s : List Char} (h : ∀ c ∈ s.head?, c ≠ '(') :
    attribute? ('(' :: s) = attribute? s := by
  unfold attribute?
  split
  · next rest heq =>
    cases heq
    split
    · exact absurd rfl (h '(' rfl)
    · rfl
  · next hne => exact absurd rfl (hne s)

/-! ## Descriptors -/

theorem isDescriptorText_iff :
    isDescriptorText s = true ↔ descriptorMark.toList.map Char.toLower <+: s.map Char.toLower :=
  Text.startsIgnoringCase_iff

/-- A descriptor has no blanks in front. -/
theorem trimStart_of_isDescriptorText (h : isDescriptorText s = true) :
    Text.trimStart s = s := by
  have hprefix := isDescriptorText_iff.mp h
  refine Text.trimStart_eq_self.mpr fun c hc => ?_
  cases s with
  | nil => cases hc
  | cons first s =>
      cases hc
      have hfirst : 'a' = c.toLower := (List.cons_prefix_cons.mp hprefix).1
      rw [← Text.isBlank_toLower, ← hfirst]
      rfl

theorem isDescriptorText_of_prefix (ht : s <+: t) (h : isDescriptorText s = true) :
    isDescriptorText t = true :=
  Text.startsIgnoringCase_of_prefix ht h

theorem isDescriptorText_of_allBlank (h : Text.allBlank s = true) :
    isDescriptorText s = false := by
  refine Bool.eq_false_iff.mpr fun hmark => ?_
  rw [← trimStart_of_isDescriptorText hmark, Text.trimStart_of_allBlank h] at hmark
  cases hmark

theorem isDescriptorText_trimStart_mono (ht : s <+: t)
    (h : isDescriptorText (Text.trimStart s) = true) :
    isDescriptorText (Text.trimStart t) = true := by
  cases hblank : Text.allBlank s with
  | true =>
      rw [Text.trimStart_of_allBlank hblank] at h
      cases h
  | false =>
      obtain ⟨rest, rfl⟩ := ht
      rw [Text.trimStart_append hblank]
      exact isDescriptorText_of_prefix (List.prefix_append _ _) h

/-- The mark of a descriptor ends in no blank, so that none of it is trimmed away. -/
theorem isDescriptorText_trimEnd (h : isDescriptorText s = true) :
    isDescriptorText (Text.trimEnd s) = true := by
  obtain ⟨rest, hrest⟩ := isDescriptorText_iff.mp h
  obtain ⟨mark, tail, rfl, hmark, _⟩ := List.map_eq_append_iff.mp hrest.symm
  have hend : (mark.map Char.toLower).getLast? = some '=' := by
    rw [hmark]
    decide
  have hlast : ∀ c ∈ mark.getLast?, Text.isBlank c = false := by
    intro c hc
    rw [List.getLast?_map, Option.mem_def.mp hc] at hend
    rw [← Text.isBlank_toLower, Option.some.inj hend]
    decide
  rw [Text.trimEnd_append hlast]
  exact Text.startsIgnoringCase_append (Text.sameIgnoringCase_iff.mpr hmark) _

theorem toList_text (host : Host) :
    host.text.toList = host.name.toList ++ ':' :: host.port.toList :=
  Text.toList_joined rfl host.name host.port

/-- The text of a host is a descriptor if and only if its name is, as there is
no colon in the mark of a descriptor. -/
theorem isDescriptorText_text (host : Host) :
    isDescriptorText host.text.toList = isDescriptorText host.name.toList := by
  rw [toList_text, Bool.eq_iff_iff]
  constructor
  · exact Text.startsIgnoringCase_of_append_cons (by decide)
  · exact isDescriptorText_of_prefix (List.prefix_append _ _)

/-- No descriptor begins in a name and goes on behind the colon. -/
theorem isDescriptorText_trimStart_colon (hblank : Text.allBlank s = false)
    (hnot : isDescriptorText (Text.trimStart s) = false) (port : List Char) :
    isDescriptorText (Text.trimStart (s ++ ':' :: port)) = false := by
  rw [Text.trimStart_append hblank]
  refine Bool.eq_false_iff.mpr fun hmark => ?_
  have hname := Text.startsIgnoringCase_of_append_cons (by decide) hmark
  exact Bool.false_ne_true (hnot.symm.trans hname)

theorem splitPort_of_descriptor (h : isDescriptorText (Text.trimStart token.toList) = true) :
    splitPort token = .ok (String.ofList (Text.trim token.toList), none) :=
  if_pos h

theorem splitPort_of_no_colon (hnot : isDescriptorText (Text.trimStart token.toList) = false)
    (h : ':' ∉ token.toList) : splitPort token = .ok (token, none) := by
  unfold splitPort
  dsimp only
  rw [hnot, if_neg Bool.false_ne_true, Text.span_eq_self h]

/-- A token is split at its first colon, behind which there has to be something. -/
theorem splitPort_of_colon (hnot : isDescriptorText (Text.trimStart token.toList) = false)
    {name port : List Char} (h : token.toList = name ++ ':' :: port) (hname : ':' ∉ name) :
    splitPort token =
      if port = [] then .error (.danglingPort token)
      else .ok (String.ofList name, some (String.ofList port)) := by
  unfold splitPort
  dsimp only
  rw [hnot, if_neg Bool.false_ne_true, h, Text.span_append hname]
  cases port <;> rfl

/-- A token that is no descriptor holds no colon, or there is a first one. -/
theorem colon_cases (s : List Char) :
    ':' ∉ s ∨ ∃ name port, s = name ++ ':' :: port ∧ ':' ∉ name := by
  by_cases h : ':' ∈ s
  · obtain ⟨name, port, hs, hname⟩ := List.eq_append_cons_of_mem h
    exact Or.inr ⟨name, port, hs, hname⟩
  · exact Or.inl h

theorem ofToken_eq_ok :
    ofToken token = .ok host ↔
      ∃ name port?, splitPort token = .ok (name, port?) ∧
        host = ⟨if Text.allBlank name.toList then defaultHost else name,
          port?.getD (toString defaultPort),
          if isDescriptorText name.toList then some (attributesOf name.toList) else none⟩ := by
  rw [ofToken, bind_eq_ok]
  constructor
  · rintro ⟨⟨name, port?⟩, hsplit, ⟨⟩⟩
    exact ⟨name, port?, hsplit, rfl⟩
  · rintro ⟨name, port?, hsplit, rfl⟩
    exact ⟨(name, port?), hsplit, rfl⟩

/-- The name in front of a port is the beginning of its token. -/
theorem prefix_of_splitPort (hnot : isDescriptorText (Text.trimStart token.toList) = false)
    (h : splitPort token = .ok (name, port?)) : name.toList <+: token.toList := by
  rcases colon_cases token.toList with hcolon | ⟨front, port, hs, hfront⟩
  · rw [splitPort_of_no_colon hnot hcolon] at h
    cases h
    exact List.prefix_refl _
  · rw [splitPort_of_colon hnot hs hfront] at h
    split at h
    · cases h
    · cases h
      rw [String.toList_ofList, hs]
      exact List.prefix_append _ _

/-- A descriptor in a token is a descriptor once it is cut out of it, and nothing else is. -/
theorem isDescriptorText_of_splitPort (h : splitPort token = .ok (name, port?)) :
    isDescriptorText name.toList = isDescriptorText (Text.trimStart token.toList) := by
  cases hmark : isDescriptorText (Text.trimStart token.toList) with
  | true =>
      rw [splitPort_of_descriptor hmark] at h
      cases h
      rw [String.toList_ofList]
      exact isDescriptorText_trimEnd hmark
  | false =>
      refine Bool.eq_false_iff.mpr fun hname => ?_
      have htoken := isDescriptorText_of_prefix (prefix_of_splitPort hmark h) hname
      rw [trimStart_of_isDescriptorText htoken, htoken] at hmark
      cases hmark

theorem isDescriptor_of_ofToken (h : ofToken token = .ok host) :
    host.isDescriptor = isDescriptorText (Text.trimStart token.toList) := by
  obtain ⟨name, port?, hsplit, rfl⟩ := ofToken_eq_ok.mp h
  rw [← isDescriptorText_of_splitPort hsplit, isDescriptor]
  cases isDescriptorText name.toList <;> rfl

/-- The attributes that a host has are those that its name tells of. -/
def Faithful (host : Host) : Prop :=
  host.attributes =
    if isDescriptorText host.name.toList then some (attributesOf host.name.toList) else none

theorem faithful_of_ofToken (h : ofToken token = .ok host) : host.Faithful := by
  obtain ⟨name, port?, hsplit, rfl⟩ := ofToken_eq_ok.mp h
  unfold Faithful
  dsimp only
  cases hblank : Text.allBlank name.toList with
  | true =>
      -- A blank name is replaced, but neither it nor the local host is a descriptor.
      have hlocal : isDescriptorText defaultHost.toList = false := by decide
      rw [if_pos rfl, isDescriptorText_of_allBlank hblank, hlocal]
      rfl
  | false => rfl

theorem Faithful.isDescriptor_eq (h : host.Faithful) :
    host.isDescriptor = isDescriptorText host.name.toList := by
  rw [isDescriptor, h]
  cases isDescriptorText host.name.toList <;> rfl

/-- Whether the host itself says that it is a master. -/
def isMaster (host : Host) : Bool :=
  host.role?.any fun role => Text.sameIgnoringCase role.toList "master".toList

theorem Faithful.isMaster_eq (h : host.Faithful) :
    host.isMaster = isMasterText host.name.toList := by
  rw [isMaster, role?, h, isMasterText]
  cases hmark : isDescriptorText host.name.toList with
  | true =>
      rw [if_pos rfl, Option.bind_some]
      cases (attributesOf host.name.toList).get? roleKey <;> rfl
  | false =>
      rw [attributesOf, hmark]
      rfl

/-! ## Lists -/

theorem readList_eq_ok (h : Text.allBlank segment.toList = false) :
    readList segment = .ok hosts ↔
      List.Forall₂ (fun token host => ofToken (String.ofList token) = .ok host)
        (Text.tokens ',' segment.toList) hosts := by
  rw [readList, if_neg (by rw [h]; exact Bool.false_ne_true), mapM_eq_ok]

theorem readList_blank (h : Text.allBlank segment.toList = true) :
    readList segment = .ok [localhost] :=
  if_pos h

theorem faithful_of_readList (h : readList segment = .ok hosts) :
    ∀ host ∈ hosts, host.Faithful := by
  cases hblank : Text.allBlank segment.toList with
  | true =>
      rw [readList_blank hblank] at h
      cases h
      exact List.forall_mem_singleton.mpr rfl
  | false =>
      exact forall_right ((readList_eq_ok hblank).mp h) (fun _ _ => trivial)
        fun _ _ htoken _ => faithful_of_ofToken htoken

theorem ne_nil_of_readList (h : readList segment = .ok hosts) : hosts ≠ [] := by
  rintro rfl
  cases hblank : Text.allBlank segment.toList with
  | true =>
      rw [readList_blank hblank] at h
      cases h
  | false =>
      have htokens := List.forall₂_nil_right_iff.mp ((readList_eq_ok hblank).mp h)
      refine Text.tokens_ne_nil ',' (fun hnil => ?_) htokens
      rw [hnil] at hblank
      cases hblank

theorem length_le_of_readList (h : readList segment = .ok hosts) :
    hosts.length ≤ segment.toList.length + 1 := by
  cases hblank : Text.allBlank segment.toList with
  | true =>
      rw [readList_blank hblank] at h
      cases h
      exact Nat.le_add_left 1 _
  | false =>
      rw [← ((readList_eq_ok hblank).mp h).length_eq]
      exact Text.length_tokens_le ',' _

end DbRoute.Host
