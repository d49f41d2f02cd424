import DbRoute.Proofs.Host
import DbRoute.Proofs.Text.Scans
import DbRoute.Proofs.Text.Tokens

/-!
# Hosts that are written out again

Hosts that have been read are written out with a name and a port each, whether
or not their list had one. The text of a host is not that of its token, then,
but no scan can tell the two apart: what is added holds neither a mark nor a
comma. So the texts of plain hosts, joined by commas, come apart again at the
same commas, even if the last of them has a mark open, and are read as the
hosts that they are the texts of.
-/

namespace DbRoute.Host

open Outcome Text

variable {token segment : String} {host : Host} {hosts : List Host}

/-! ## Hosts and their tokens -/

/-- A plain host with a name and a port, so that nothing has to stand in for either. -/
structure WrittenOut (host : Host) : Prop where
  plain : host.attributes = none
  name_not_blank : allBlank host.name.toList = false
  name_free : ':' ∉ host.name.toList
  not_descriptor : isDescriptorText (trimStart host.name.toList) = false
  port_ne_nil : host.port.toList ≠ []

theorem WrittenOut.not_descriptor_text (h : host.WrittenOut) :
    isDescriptorText (trimStart host.text.toList) = false := by
  rw [toList_text]
  exact isDescriptorText_trimStart_colon h.name_not_blank h.not_descriptor _

theorem WrittenOut.splitPort_text (h : host.WrittenOut) :
    splitPort host.text = .ok (host.name, some host.port) := by
  rw [splitPort_of_colon h.not_descriptor_text (toList_text host) h.name_free,
    if_neg h.port_ne_nil, String.ofList_toList, String.ofList_toList]

theorem WrittenOut.ofToken_text (h : host.WrittenOut) : ofToken host.text = .ok host := by
  have hname : isDescriptorText host.name.toList = false := by
    rw [isDescriptorText_of_splitPort h.splitPort_text]
    exact h.not_descriptor_text
  refine ofToken_eq_ok.mpr ⟨_, _, h.splitPort_text, ?_⟩
  rw [h.name_not_blank, hname, ← h.plain]
  rfl

/-- A plain host has the name and the port of its token, or else the usual ones. -/
theorem exists_of_ofToken (h : ofToken token = .ok host) (hplain : host.attributes = none) :
    ∃ name port : String,
      host = .plain (if allBlank name.toList then defaultHost else name) port ∧
      ':' ∉ name.toList ∧ port.toList ≠ [] ∧
      isDescriptorText (trimStart name.toList) = false ∧
      ScansAs ',' (name.toList ++ ':' :: port.toList) token.toList := by
  have hnot : isDescriptorText (trimStart token.toList) = false := by
    rw [← isDescriptor_of_ofToken h, isDescriptor, hplain]
    rfl
  obtain ⟨name, port?, hsplit, rfl⟩ := ofToken_eq_ok.mp h
  dsimp only at hplain
  rcases colon_cases token.toList with hcolon | ⟨front, port, hs, hfront⟩
  · rw [splitPort_of_no_colon hnot hcolon] at hsplit
    cases hsplit
    refine ⟨token, toString defaultPort, by rw [hplain]; rfl, hcolon, by decide, hnot, ?_⟩
    -- The usual port is added behind the token and holds nothing that a scan stops for.
    have hport : ScansAs ',' (':' :: (toString defaultPort).toList) [] :=
      .nil_of_free (by decide)
    have hboth := (ScansAs.refl ',' token.toList).append hport
    rwa [List.append_nil] at hboth
  · rw [splitPort_of_colon hnot hs hfront] at hsplit
    split at hsplit
    · cases hsplit
    · next hport =>
      cases hsplit
      have hprefix : front <+: token.toList := hs ▸ List.prefix_append _ _
      refine ⟨String.ofList front, String.ofList port, by rw [hplain]; rfl, ?_, ?_, ?_, ?_⟩
      · rwa [String.toList_ofList]
      · rwa [String.toList_ofList]
      · rw [String.toList_ofList]
        refine Bool.eq_false_iff.mpr fun hmark => ?_
        exact Bool.false_ne_true (hnot.symm.trans (isDescriptorText_trimStart_mono hprefix hmark))
      · rw [String.toList_ofList, String.toList_ofList, ← hs]
        exact .refl _ _

theorem writtenOut_of_ofToken (h : ofToken token = .ok host) (hplain : host.attributes = none) :
    host.WrittenOut := by
  obtain ⟨name, port, rfl, hcolon, hport, hnot, _⟩ := exists_of_ofToken h hplain
  by_cases hblank : allBlank name.toList = true
  · have hlocal : allBlank defaultHost.toList = false ∧ ':' ∉ defaultHost.toList ∧
        isDescriptorText (trimStart defaultHost.toList) = false := by decide
    rw [if_pos hblank]
    exact ⟨rfl, hlocal.1, hlocal.2.1, hlocal.2.2, hport⟩
  · rw [if_neg hblank]
    exact ⟨rfl, Bool.eq_false_iff.mpr hblank, hcolon, hnot, hport⟩

/-- No scan can tell the text of a plain host from its token. -/
theorem scansAs_of_ofToken (h : ofToken token = .ok host) (hplain : host.attributes = none) :
    ScansAs ',' host.text.toList token.toList := by
  obtain ⟨name, port, rfl, _, _, _, hscan⟩ := exists_of_ofToken h hplain
  rw [toList_text]
  refine ScansAs.trans (.append ?_ (.refl _ _)) hscan
  by_cases hblank : allBlank name.toList = true
  · rw [plain, if_pos hblank]
    have hlocal : ScansAs ',' defaultHost.toList [] := .nil_of_free (by decide)
    have hsolid : ∀ c ∈ ['"', '\'', ','], isBlank c = false := by simp [isBlank]
    exact hlocal.trans (ScansAs.nil_of_free (freeOf_of_allBlank hsolid hblank)).symm
  · rw [plain, if_neg hblank]
    exact .refl _ _

/-! ## Lists -/

/-- The texts of hosts with commas between them. -/
def listText (hosts : List Host) : String := String.intercalate "," (hosts.map text)

/-- Hosts whose texts, joined by commas, come apart again at these. -/
structure Listable (hosts : List Host) : Prop where
  ne_nil : hosts ≠ []
  writtenOut : ∀ host ∈ hosts, host.WrittenOut
  uncut : ∀ host ∈ hosts, cut? ',' host.text.toList = none
  closed : ∀ host ∈ hosts.dropLast, markAfter none host.text.toList = none

theorem writtenOut_localhost : localhost.WrittenOut :=
  ⟨rfl, by decide, by decide, by decide, by decide⟩

theorem listable_of_readList (h : readList segment = .ok hosts)
    (hplain : ∀ host ∈ hosts, host.attributes = none) : Listable hosts := by
  cases hblank : allBlank segment.toList with
  | true =>
      rw [readList_blank hblank] at h
      cases h
      exact ⟨List.cons_ne_nil _ _, List.forall_mem_singleton.mpr writtenOut_localhost,
        by decide, by decide⟩
  | false =>
      have htokens := (readList_eq_ok hblank).mp h
      have hscans : List.Forall₂ (fun token host => host.WrittenOut ∧
          ScansAs ',' host.text.toList token) (tokens ',' segment.toList) hosts := by
        have hboth := (List.forall₂_and_left _ _).mpr ⟨hplain, htokens.flip⟩
        refine hboth.flip.imp ?_
        rintro token host ⟨hnone, htoken⟩
        have hscan := scansAs_of_ofToken htoken hnone
        rw [String.toList_ofList] at hscan
        exact ⟨writtenOut_of_ofToken htoken hnone, hscan⟩
      have hsplit := tokenises_tokens (d := ',') (by decide) segment.toList
      constructor
      · exact ne_nil_of_readList h
      · exact forall_right hscans (fun _ _ => trivial) fun _ _ h _ => h.1
      · refine forall_right hscans hsplit.uncut fun token host hboth huncut => ?_
        exact (hboth.2.uncut_iff none isMark_none).mpr ((cut?_eq_none_iff (by decide)).mpr huncut)
      · have hlasts := List.forall₂_take (hosts.length - 1) hscans
        rw [← List.dropLast_eq_take, ← hscans.length_eq, ← List.dropLast_eq_take] at hlasts
        refine forall_right hlasts hsplit.closed fun token host hboth hclosed => ?_
        exact (hboth.2.mark_eq none isMark_none).trans hclosed

/-- The hosts of a list that is written out are read from it again. -/
theorem Listable.readList_listText (h : Listable hosts) : readList (listText hosts) = .ok hosts := by
  have htext : (listText hosts).toList = [','].intercalate (hosts.map (·.text.toList)) := by
    rw [listText, String.toList_intercalate, List.map_map]
    rfl
  have hblank : allBlank (listText hosts).toList = false := by
    obtain ⟨host, rest, hhosts⟩ := List.exists_cons_of_ne_nil h.ne_nil
    have hname := (h.writtenOut host (by simp [hhosts])).name_not_blank
    rw [htext, hhosts, List.map_cons]
    apply allBlank_intercalate
    rw [toList_text, allBlank_append, hname, Bool.false_and]
  have htokens : tokens ',' (listText hosts).toList = hosts.map (·.text.toList) := by
    rw [htext]
    apply tokens_intercalate_of_uncut (by decide)
    · simpa using h.uncut
    · intro p hp
      rw [← List.map_dropLast, List.mem_map] at hp
      obtain ⟨host, hmem, rfl⟩ := hp
      exact h.closed host hmem
    · rw [List.getLast?_map]
      intro hlast
      obtain ⟨host, _, hnil⟩ := Option.map_eq_some_iff.mp hlast
      rw [toList_text] at hnil
      simp at hnil
  rw [readList_eq_ok hblank, htokens, List.forall₂_map_left_iff, List.forall₂_same]
  intro host hmem
  rw [String.ofList_toList]
  exact (h.writtenOut host hmem).ofToken_text

/-- Plain hosts that have been read from a list, whatever stands in for what they
lack and whatever marks there are in them, are written out as a list that is read
as the same hosts, so that it is written out as itself. The text of each of them is
split into its name and its port again. -/
theorem readList_listText_of_readList (h : readList segment = .ok hosts)
    (hplain : ∀ host ∈ hosts, host.isDescriptor = false) :
    readList (listText hosts) = .ok hosts ∧
    (readList (listText hosts)).map listText = .ok (listText hosts) ∧
    ∀ host ∈ hosts, splitPort host.text = .ok (host.name, some host.port) := by
  have hlistable : Listable hosts := by
    apply listable_of_readList h
    intro host hmem
    simpa [isDescriptor] using hplain host hmem
  refine ⟨hlistable.readList_listText, ?_, ?_⟩
  · rw [hlistable.readList_listText]
    rfl
  · intro host hmem
    exact (hlistable.writtenOut host hmem).splitPort_text

/-- Two hosts without a name, a colon and a comma in marks, two colons, and a mark left open. -/
def oddHosts : List Host :=
  [.plain "localhost" "3306", .plain "'a" "b,c':7", .plain "h" "1:2", .plain "localhost" "9",
    .plain "\"x" "3306"]

theorem readList_listText_oddHosts :
    readList "  ,'a:b,c':7,h:1:2, :9,\"x" = .ok oddHosts ∧
    readList "localhost:3306,'a:b,c':7,h:1:2,localhost:9,\"x:3306" = .ok oddHosts ∧
    splitPort "\"x:3306" = .ok ("\"x", some "3306") := by
  have hread : readList "  ,'a:b,c':7,h:1:2, :9,\"x" = .ok oddHosts := by decide +kernel
  obtain ⟨hagain, _, hsplit⟩ := readList_listText_of_readList hread (by decide)
  have htext : listText oddHosts = "localhost:3306,'a:b,c':7,h:1:2,localhost:9,\"x:3306" := by
    decide +kernel
  rw [htext] at hagain
  exact ⟨hread, hagain, hsplit (.plain "\"x" "3306") (by decide)⟩

end DbRoute.Host
