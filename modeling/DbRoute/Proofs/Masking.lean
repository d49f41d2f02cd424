import DbRoute.Proofs.SameBut
import DbRoute.Proofs.Url.RoundTrip

/-!
# Passwords in printed properties

Printed properties have four stars for the value under the key of the password, and
every other value as it is. So a password in a query leaves no trace in the text,
wherever it stands there and whatever it is. A password in a descriptor is a part of
the name of its host, and the name is printed: the text tells any two of them apart.
-/

namespace DbRoute

open Properties Outcome

/-! ## Texts of properties -/

namespace Properties

variable {p q : Properties} {hidden : List String} {key : String}

/-- What the text has for a key. -/
def shown (p : Properties) (key : String) : List Char :=
  (shownPair (key, (p.get? key).getD "")).toList

theorem toList_text (p : Properties) :
    p.text.toList = '\x7b' :: ([',', ' '].intercalate (p.keys.map p.shown) ++ ['\x7d']) := by
  have hshown : (p.pairs.map shownPair).map String.toList = p.keys.map p.shown := by
    rw [pairs_eq_map, List.map_map, List.map_map]
    rfl
  rw [text, String.toList_append, String.toList_append, String.toList_intercalate, hshown]
  rfl

theorem text_eq_of_sameBut (h : SameBut [Key.password] p q) : p.text = q.text := by
  have hshown : ∀ key, p.shown key = q.shown key := by
    intro key
    by_cases hkey : key = Key.password
    · rw [hkey]
      rfl
    · rw [shown, shown, h.get? key (by simpa using hkey)]
  apply String.toList_inj.mp
  rw [toList_text, toList_text, h.keys, List.map_congr_left fun key _ => hshown key]

theorem length_intercalate_map_le {α : Type} (sep : List Char) {f g : α → List Char} {l : List α}
    (h : ∀ a ∈ l, (f a).length ≤ (g a).length) :
    (sep.intercalate (l.map f)).length ≤ (sep.intercalate (l.map g)).length := by
  induction l with
  | nil => exact Nat.le_refl _
  | cons a l ih =>
      obtain ⟨ha, hl⟩ := List.forall_mem_cons.mp h
      cases l with
      | nil => simpa using ha
      | cons b l =>
          have := ih hl
          simp only [List.map_cons, List.intercalate_cons_cons, List.length_append] at this ⊢
          omega

/-- Joined texts that are the same have the same parts, if no part of the one is longer
than that of the other. -/
theorem eq_of_intercalate_map_eq {α : Type} {sep : List Char} {f g : α → List Char} {l : List α}
    (hle : ∀ a ∈ l, (f a).length ≤ (g a).length)
    (h : sep.intercalate (l.map f) = sep.intercalate (l.map g)) : ∀ a ∈ l, f a = g a := by
  induction l with
  | nil => exact fun _ ha => absurd ha List.not_mem_nil
  | cons a l ih =>
      obtain ⟨ha, hl⟩ := List.forall_mem_cons.mp hle
      cases l with
      | nil => simpa using h
      | cons b l =>
          have hrest := length_intercalate_map_le sep hl
          simp only [List.map_cons, List.intercalate_cons_cons, List.append_assoc] at h hrest
          have hlength := congrArg List.length h
          simp only [List.length_append] at hlength
          obtain ⟨hfirst, htail⟩ := List.append_inj h (by omega)
          exact List.forall_mem_cons.mpr ⟨hfirst, ih hl (List.append_cancel_left htail)⟩

theorem get?_eq_of_shown_eq (hkeys : p.keys = q.keys) (hkey : key ≠ Key.password)
    (h : key ∈ p.keys → p.shown key = q.shown key) : p.get? key = q.get? key := by
  by_cases hmem : key ∈ p.keys
  · have hvalue := h hmem
    simp only [shown, shownPair, if_neg hkey, String.toList_append, List.append_assoc,
      List.append_cancel_left_eq, String.toList_inj] at hvalue
    cases hp : p.get? key with
    | none => exact absurd hmem (get?_eq_none_iff.mp hp)
    | some value =>
        cases hq : q.get? key with
        | none => exact absurd (hkeys ▸ hmem) (get?_eq_none_iff.mp hq)
        | some other =>
            rw [hp, hq] at hvalue
            exact congrArg some hvalue
  · rw [get?_eq_none_iff.mpr hmem, get?_eq_none_iff.mpr (hkeys ▸ hmem)]

/-- One text stands where the other does, under keys that are hidden. -/
def Exchanged (hidden : List String) (name other : String) (p q : Properties) : Prop :=
  ∀ key ∈ hidden, p.get? key = q.get? key ∨ p.get? key = some name ∧ q.get? key = some other

theorem shown_eq_of_text_eq {name other : String} (hle : name.length ≤ other.length)
    (h : SameBut hidden p q) (hmask : Key.password ∉ hidden)
    (hexchanged : Exchanged hidden name other p q) (htext : p.text = q.text) :
    ∀ key ∈ p.keys, p.shown key = q.shown key := by
  have hparts : ∀ key ∈ p.keys, (p.shown key).length ≤ (q.shown key).length := by
    intro key _
    have hsame : p.get? key = q.get? key → (p.shown key).length ≤ (q.shown key).length := by
      intro hget
      rw [shown, shown, hget]
    by_cases hkey : key ∈ hidden
    · rcases hexchanged key hkey with hget | ⟨hp, hq⟩
      · exact hsame hget
      · have hne : key ≠ Key.password := fun e => hmask (e ▸ hkey)
        simp only [shown, hp, hq, shownPair, if_neg hne, Option.getD_some, String.length_toList,
          String.length_append]
        exact Nat.add_le_add_left hle _
    · exact hsame (h.get? key hkey)
  have hlists := congrArg String.toList htext
  rw [toList_text, toList_text, ← h.keys] at hlists
  exact eq_of_intercalate_map_eq hparts (List.append_cancel_right (List.cons.inj hlists).2)

/-- Where one text stands for another under some keys, and neither is masked, the texts
are the same only if the properties are. -/
theorem eq_of_text_eq {name other : String} (h : SameBut hidden p q)
    (hmask : Key.password ∉ hidden) (hexchanged : Exchanged hidden name other p q)
    (htext : p.text = q.text) : p = q := by
  -- One of the two texts is no longer than the other, and so is then each part of it.
  have hparts : ∀ key ∈ p.keys, p.shown key = q.shown key := by
    rcases Nat.le_total name.length other.length with hle | hle
    · exact shown_eq_of_text_eq hle h hmask hexchanged htext
    · have hback : Exchanged hidden other name q p := fun key hkey =>
        (hexchanged key hkey).imp Eq.symm And.symm
      intro key hkey
      exact (shown_eq_of_text_eq hle h.symm hmask hback htext.symm key (h.keys ▸ hkey)).symm
  refine h.eq_of_get? fun key hkey => ?_
  have hne : key ≠ Key.password := fun e => hmask (e ▸ hkey)
  exact get?_eq_of_shown_eq h.keys hne (hparts key)

end Properties

/-! ## A password in a query -/

/-- A URL with a password among the pieces of its query. -/
def passwordUrl (location : String) (before after : List String) (raw : String) : String :=
  location ++ "?" ++ "&".intercalate (before ++ ("password=" ++ raw) :: after)

namespace Query

variable {raw other : String}

theorem parameters_password (hne : raw ≠ "") (hfree : '&' ∉ raw.toList) :
    parameters ("password=" ++ raw) = ofList [(Key.password, Text.formDecode raw)] := by
  have hpair : IsPair ("password=" ++ raw) Key.password raw :=
    ⟨rfl, by decide, by decide, hne⟩
  have hpiece : '&' ∉ ("password=" ++ raw).toList := by
    rw [String.toList_append, List.mem_append]
    exact fun h => h.elim (by decide) hfree
  rw [parameters, Text.pieces_eq_self hpiece, List.filterMap_cons_some hpair.parameter?]
  rfl

theorem sameBut_parameters (before after : List String) (hne : raw ≠ "") (hfree : '&' ∉ raw.toList)
    (hne' : other ≠ "") (hfree' : '&' ∉ other.toList) :
    SameBut [Key.password] (parameters ("&".intercalate (before ++ ("password=" ++ raw) :: after)))
      (parameters ("&".intercalate (before ++ ("password=" ++ other) :: after))) := by
  have hvalue : SameBut [Key.password] (ofList [(Key.password, Text.formDecode raw)])
      (ofList [(Key.password, Text.formDecode other)]) := by
    refine ⟨rfl, fun key hkey => ?_⟩
    have hkey' : key ≠ Key.password := by simpa using hkey
    rw [get?_ofList, get?_ofList]
    simp [hkey']
  simp only [parameters_intercalate, List.map_append, List.map_cons, stack_append, stack_cons,
    parameters_password hne hfree, parameters_password hne' hfree']
  exact (SameBut.refl _).overlay (hvalue.overlay (.refl _))

end Query

namespace UrlParts

variable {location : String} {scheme : Scheme} {rest : List Char}

theorem not_mem_lowerOpening (scheme : Scheme) : '?' ∉ scheme.lowerOpening := by
  cases scheme <;> decide

theorem toList_query (location query : String) :
    (location ++ "?" ++ query).toList = location.toList ++ '?' :: query.toList :=
  Text.toList_joined rfl location query

/-- What opens a URL stands in front of its query. -/
theorem ofUrl?_query (location query : String) :
    Scheme.ofUrl? (location ++ "?" ++ query) = Scheme.ofUrl? location := by
  refine Option.ext fun scheme => ?_
  rw [Scheme.ofUrl?_eq_some_iff, Scheme.ofUrl?_eq_some_iff, toList_query, List.map_append]
  constructor
  · intro h
    rcases List.prefix_or_prefix_of_prefix h (List.prefix_append _ _) with hfront | hbehind
    · exact hfront
    · -- An opening that goes on behind the location would hold a question mark.
      obtain ⟨tail, htail⟩ := hbehind
      rw [← htail, List.prefix_append_right_inj] at h
      cases tail with
      | nil =>
          rw [List.append_nil] at htail
          exact ⟨[], by rw [List.append_nil, htail]⟩
      | cons c tail =>
          obtain ⟨rfl, _⟩ := List.cons_prefix_cons.mp h
          exact absurd (htail ▸ by simp) (not_mem_lowerOpening scheme)
  · exact fun h => h.trans (List.prefix_append _ _)

theorem ofRest_query (hrest : '?' ∉ rest) (query : List Char) :
    ofRest scheme (rest ++ '?' :: query) =
      (ofRest scheme rest).map fun u =>
        { u with parameters := Query.parameters (String.ofList query) } := by
  have hwith : splitQuery (rest ++ '?' :: query) = (rest, some query) := by
    rw [splitQuery, Text.span_append hrest]
  have hwithout : splitQuery rest = (rest, none) := by
    rw [splitQuery, Text.span_eq_self hrest]
  unfold ofRest
  rw [hwith, hwithout]
  dsimp only
  cases Host.readList (String.ofList (splitPath rest).1) <;> rfl

/-- The query of a URL gives its parameters and nothing else. -/
theorem read_query (hlocation : '?' ∉ location.toList) (query : String) :
    read (location ++ "?" ++ query) =
      (read location).map
        (Option.map fun u => { u with parameters := Query.parameters query }) := by
  unfold read
  rw [ofUrl?_query]
  cases hscheme : Scheme.ofUrl? location with
  | none => rfl
  | some scheme =>
      have hlength : scheme.opening.length ≤ location.toList.length := by
        have hprefix := (Scheme.ofUrl?_eq_some_iff.mp hscheme).length_le
        rwa [Scheme.lowerOpening, List.length_map, List.length_map, String.length_toList] at hprefix
      have hrest : '?' ∉ location.toList.drop scheme.opening.length := fun h =>
        hlocation (List.mem_of_mem_drop h)
      dsimp only
      rw [toList_query, List.drop_append_of_le_length hlength, ofRest_query hrest,
        String.ofList_toList]
      cases ofRest scheme (location.toList.drop scheme.opening.length) <;> rfl

end UrlParts

/-! ## A password in a descriptor -/

namespace UrlParts

variable {u : UrlParts} {layer overrides r : Properties} {i : Nat} {h h' : Host} {key : String}

theorem password_not_mem_nameKeys (i : Nat) : Key.password ∉ nameKeys i := by
  rw [mem_nameKeys]
  rintro (hindexed | ⟨_, hhost⟩)
  · exact Key.indexedHost_ne (by decide) hindexed.symm
  · exact absurd hhost (by decide)

theorem ne_of_mem_nameKeys {other : String} (hkey : key ∈ nameKeys i) (hdot : '.' ∉ other.toList)
    (hother : other ≠ Key.host) : key ≠ other := by
  rintro rfl
  rcases mem_nameKeys.mp hkey with hindexed | ⟨_, hhost⟩
  · exact Key.indexedHost_ne hdot hindexed.symm
  · exact hother hhost

/-- Overrides that have an answer wherever properties have the name of a host. -/
def CoversHost (overrides : Properties) (i : Nat) : Prop :=
  ∀ key ∈ nameKeys i, (overrides.get? key).isSome

/-- Under its keys the name of a host comes through to the end, unless it is overridden. -/
theorem get?_of_merge {load : Lookup} {env : Environment} (hi : u.hosts[i]? = some h)
    (hmerge : Resolution.merge load (Resolution.addEmbedding env u.properties overrides) overrides =
      .ok r) (hkey : key ∈ nameKeys i) :
    r.get? key = (overrides.get? key).or (some h.name) := by
  have hcount : key ≠ Key.hostCount := ne_of_mem_nameKeys hkey (by decide) (by decide)
  have hnames : key ≠ Key.configurations := ne_of_mem_nameKeys hkey (by decide) (by decide)
  obtain ⟨configurations, _, rfl⟩ := Resolution.merge_eq_ok.mp hmerge
  rw [get?_overlay, get?_erase, if_neg hcount, get?_overlay, get?_addEmbedding _ _ _ hnames,
    get?_of_mem_nameKeys hi hkey, Option.some_or]

/-- The texts of the properties are the same for two names of a host, unless the host
is overridden, only if the names are. -/
theorem text_eq_iff_of_host {load : Lookup} {env : Environment} {r' : Properties}
    (hi : u.hosts[i]? = some h) (hport : h'.port = h.port)
    (hmerge : Resolution.merge load (Resolution.addEmbedding env u.properties overrides) overrides =
      .ok r)
    (hmerge' : Resolution.merge load (Resolution.addEmbedding env
      { u with hosts := u.hosts.set i h' }.properties overrides) overrides = .ok r') :
    r.text = r'.text ↔ h.name = h'.name ∨ CoversHost overrides i := by
  have hset : (u.hosts.set i h')[i]? = some h' :=
    List.getElem?_set_self (List.getElem?_eq_some_iff.mp hi).1
  have hsame : SameBut (nameKeys i) r r' := by
    have hauto : Key.autoEmbedding ∉ nameKeys i := fun hkey =>
      ne_of_mem_nameKeys hkey (by decide) (by decide) rfl
    have hnames : Key.configurations ∉ nameKeys i := fun hkey =>
      ne_of_mem_nameKeys hkey (by decide) (by decide) rfl
    exact Resolution.sameBut_of_merge (Resolution.sameBut_addEmbedding
      (sameBut_properties_of_host hi hport) hauto hnames env) hnames hmerge hmerge'
  have hget : ∀ key ∈ nameKeys i, r.get? key = (overrides.get? key).or (some h.name) ∧
      r'.get? key = (overrides.get? key).or (some h'.name) := fun key hkey =>
    ⟨get?_of_merge hi hmerge hkey, get?_of_merge hset hmerge' hkey⟩
  constructor
  · intro htext
    have hexchanged : Exchanged (nameKeys i) h.name h'.name r r' := by
      intro key hkey
      obtain ⟨hr, hr'⟩ := hget key hkey
      rw [hr, hr']
      cases overrides.get? key with
      | none => exact .inr ⟨rfl, rfl⟩
      | some value => exact .inl rfl
    have heq := eq_of_text_eq hsame (password_not_mem_nameKeys i) hexchanged htext
    refine or_iff_not_imp_left.mpr fun hne key hkey => ?_
    obtain ⟨hr, hr'⟩ := hget key hkey
    rw [heq, hr'] at hr
    cases hover : overrides.get? key with
    | some value => rfl
    | none =>
        rw [hover] at hr
        exact absurd (Option.some.inj hr).symm hne
  · intro hcase
    have heq : r = r' := by
      refine hsame.eq_of_get? fun key hkey => ?_
      obtain ⟨hr, hr'⟩ := hget key hkey
      rw [hr, hr']
      rcases hcase with hname | hcovers
      · rw [hname]
      · obtain ⟨value, hvalue⟩ := Option.isSome_iff_exists.mp (hcovers key hkey)
        rw [hvalue, Option.some_or, Option.some_or]
    rw [heq]

end UrlParts

/-- The attribute with another value between its marks. -/
def WrittenAttribute.withValue (a : WrittenAttribute) (value : String)
    (free : a.mark ∉ value.toList ∧ '?' ∉ value.toList) : WrittenAttribute :=
  { a with value := value, value_free := free }

/-- The URL with another host in the place of one it has. -/
def WrittenUrl.withHost (u : WrittenUrl) (i : Nat) (host : WrittenHost) : WrittenUrl :=
  { u with
    hosts := u.hosts.set i host
    hosts_ne_nil := by simpa using u.hosts_ne_nil }

theorem WrittenUrl.parts_withHost (u : WrittenUrl) (i : Nat) (host : WrittenHost) :
    (u.withHost i host).parts = { u.parts with hosts := u.parts.hosts.set i host.host } := by
  simp only [parts, withHost, List.map_set]

/-- A descriptor has its values in its text. -/
theorem Descriptor.text_withValue_eq_iff {front back : List WrittenAttribute}
    {a : WrittenAttribute} {other : String}
    (free : a.mark ∉ other.toList ∧ '?' ∉ other.toList) :
    descriptorText (front ++ a :: back) = descriptorText (front ++ a.withValue other free :: back) ↔
      a.value = other := by
  have hgroup : ∀ b : WrittenAttribute, b.group =
      '(' :: (b.key.toList ++ '=' :: (b.mark :: b.value.toList ++ [b.mark]) ++ [')']) :=
    fun _ => rfl
  rw [descriptorText, descriptorText, List.flatMap_append, List.flatMap_append, List.flatMap_cons,
    List.flatMap_cons, hgroup, hgroup]
  dsimp only [WrittenAttribute.withValue]
  simp only [List.append_cancel_left_eq, List.append_cancel_right_eq, List.cons.injEq, true_and,
    List.cons_append, String.toList_inj]

namespace Context

open Resolution UrlParts

variable {c : Context} {overrides r r' : Properties}

theorem text_eq_of_passwordUrl {location : String} {before after : List String}
    {raw other : String} (hlocation : '?' ∉ location.toList)
    (hne : raw ≠ "") (hfree : '&' ∉ raw.toList) (hne' : other ≠ "") (hfree' : '&' ∉ other.toList)
    (hnone : NamesNoTransform (passwordUrl location before after raw) overrides)
    (h : c.resolve (passwordUrl location before after raw) overrides = .ok (some r))
    (h' : c.resolve (passwordUrl location before after other) overrides = .ok (some r')) :
    r.text = r'.text := by
  have hparameters := Query.sameBut_parameters before after hne hfree hne' hfree'
  obtain ⟨u, hread, hmerge⟩ := exists_merge_of_resolve hnone h
  -- The two URLs are read to the same parts but for their parameters.
  have hother : read (passwordUrl location before after other) = .ok (some { u with
      parameters := Query.parameters ("&".intercalate (before ++ ("password=" ++ other) :: after)) })
      ∧ u.parameters =
        Query.parameters ("&".intercalate (before ++ ("password=" ++ raw) :: after)) := by
    rw [passwordUrl, read_query hlocation] at hread ⊢
    obtain ⟨v?, hlocated, hu⟩ := map_eq_ok.mp hread
    obtain ⟨v, rfl, rfl⟩ := Option.map_eq_some_iff.mp hu
    rw [hlocated]
    exact ⟨rfl, rfl⟩
  obtain ⟨hread', hu⟩ := hother
  rw [← hu] at hparameters
  have hnone' : (Query.parameters ("&".intercalate
      (before ++ ("password=" ++ other) :: after))).get? Key.transform = none :=
    (hparameters.get? _ (by decide)).symm.trans (hnone.url u hread)
  have hmerge' := (resolve_eq_some_of_no_transform hread' hnone' hnone.overrides).mp h'
  have hlayers : SameBut _ (addEmbedding c.environment _ overrides) _ :=
    sameBut_addEmbedding (sameBut_properties_of_parameters hparameters) (by decide) (by decide) _
  exact text_eq_of_sameBut (sameBut_of_merge hlayers (by decide) hmerge hmerge')

theorem text_eq_iff_of_withHost {u : WrittenUrl} {i : Nat} {front back : List WrittenAttribute}
    {a : WrittenAttribute} {other : String} (free : a.mark ∉ other.toList ∧ '?' ∉ other.toList)
    (hi : u.hosts[i]? = some (.descriptor (front ++ a :: back)))
    (hnone : NamesNoTransform u.text overrides)
    (h : c.resolve u.text overrides = .ok (some r))
    (h' : c.resolve (u.withHost i (.descriptor (front ++ a.withValue other free :: back))).text
      overrides = .ok (some r')) :
    r.text = r'.text ↔ a.value = other ∨ CoversHost overrides i := by
  have hread := (u.withHost i (.descriptor (front ++ a.withValue other free :: back))).read_text
  rw [WrittenUrl.parts_withHost] at hread
  have hquery := hnone.url u.parts u.read_text
  have hmerge := (resolve_eq_some_of_no_transform u.read_text hquery hnone.overrides).mp h
  have hmerge' := (resolve_eq_some_of_no_transform hread hquery hnone.overrides).mp h'
  have hhost : u.parts.hosts[i]? = some (WrittenHost.descriptor (front ++ a :: back)).host := by
    rw [WrittenUrl.parts, List.getElem?_map, hi]
    rfl
  have hname : (WrittenHost.descriptor (front ++ a :: back)).host.name =
      (WrittenHost.descriptor (front ++ a.withValue other free :: back)).host.name ↔
        a.value = other :=
    String.ofList_inj.trans (Descriptor.text_withValue_eq_iff free)
  have hport : (WrittenHost.descriptor (front ++ a.withValue other free :: back)).host.port =
      (WrittenHost.descriptor (front ++ a :: back)).host.port := rfl
  exact (text_eq_iff_of_host hhost hport hmerge hmerge').trans (or_congr_left hname)

/-- Of a password in the query printed properties show nothing, whatever it is and
wherever it stands among the parameters. Of a password in a descriptor, as of each of
its attributes, they show all, unless the overrides put another host in its place. -/
theorem text_of_passwords (c : Context) (overrides : Properties) :
    (∀ (location : String) (before after : List String) (raw other : String) (r r' : Properties),
      '?' ∉ location.toList → raw ≠ "" → '&' ∉ raw.toList → other ≠ "" → '&' ∉ other.toList →
      NamesNoTransform (passwordUrl location before after raw) overrides →
      c.resolve (passwordUrl location before after raw) overrides = .ok (some r) →
      c.resolve (passwordUrl location before after other) overrides = .ok (some r') →
      r.text = r'.text) ∧
    (∀ (u : WrittenUrl) (i : Nat) (front back : List WrittenAttribute) (a : WrittenAttribute)
        (other : String) (free : a.mark ∉ other.toList ∧ '?' ∉ other.toList) (r r' : Properties),
      u.hosts[i]? = some (.descriptor (front ++ a :: back)) →
      NamesNoTransform u.text overrides →
      c.resolve u.text overrides = .ok (some r) →
      c.resolve (u.withHost i (.descriptor (front ++ a.withValue other free :: back))).text
        overrides = .ok (some r') →
      (r.text = r'.text ↔ a.value = other ∨ CoversHost overrides i)) := by
  constructor
  · intro location before after raw other r r' hlocation hne hfree hne' hfree' hnone h h'
    exact text_eq_of_passwordUrl hlocation hne hfree hne' hfree' hnone h h'
  · intro u i front back a other free r r' hi hnone h h'
    exact text_eq_iff_of_withHost free hi hnone h h'

/-- A context in which nothing is configured. -/
def unconfigured : Context where
  load := fun name => .error (.notFound name)

def hostAttribute : WrittenAttribute where
  key := "host"
  mark := '\''
  value := "db2"
  key_ne_empty := by decide
  key_trimmed := by decide
  key_free := by decide
  mark_isQuote := Text.isQuote_single
  value_free := by decide

def passwordAttribute : WrittenAttribute where
  key := "password"
  mark := '\''
  value := "alpha"
  key_ne_empty := by decide
  key_trimmed := by decide
  key_free := by decide
  mark_isQuote := Text.isQuote_single
  value_free := by decide

/-- The second host is a descriptor with a password. -/
def credentialUrl : WrittenUrl where
  scheme := .balanced
  opening := "mysql:loadbalance://"
  hosts :=
    [.plain { name := "first", port := none
              name_free := by decide, name_not_blank := by decide, not_descriptor := by decide
              port_free := by rintro _ ⟨⟩ },
     .descriptor [hostAttribute, passwordAttribute]]
  database := some "shop"
  query := none
  opening_spells := by decide
  hosts_ne_nil := by decide
  database_free := by rintro _ ⟨⟩; decide

theorem passwordAttribute_free :
    passwordAttribute.mark ∉ "omega".toList ∧ '?' ∉ "omega".toList := by
  decide

/-- The URL with another password. -/
def otherCredentialUrl : WrittenUrl :=
  credentialUrl.withHost 1
    (.descriptor ([hostAttribute] ++ [passwordAttribute.withValue "omega" passwordAttribute_free]))

/-- The settings of the URL with the given password. -/
def credentialed (password : String) : Properties :=
  ofList [("host.1", "first"), ("port.1", "3306"),
    ("host.2", "address=(host='db2')(password='" ++ password ++ "')"), ("port.2", "3306"),
    ("numHosts", "2"), ("host", "first"), ("port", "3306"), ("dbname", "shop")]

/-- A password between two other parameters. -/
def queryUrl (raw : String) : String :=
  passwordUrl "mysql://db1/shop" ["user=app"] ["a=1"] raw

def queried (password : String) : Properties :=
  ofList [("user", "app"), (Key.password, password), ("a", "1"), ("host.1", "db1"),
    ("port.1", "3306"), ("numHosts", "1"), ("host", "db1"), ("port", "3306"), ("dbname", "shop")]

theorem text_of_passwords_credentials :
    (∃ r r', unconfigured.resolve (queryUrl "s3%26") ∅ = .ok (some r) ∧
      unconfigured.resolve (queryUrl "%2A+x") ∅ = .ok (some r') ∧ r.text = r'.text) ∧
    (∃ r r', unconfigured.resolve credentialUrl.text ∅ = .ok (some r) ∧
      unconfigured.resolve otherCredentialUrl.text ∅ = .ok (some r') ∧ r.text ≠ r'.text) := by
  obtain ⟨hquery, hdescriptor⟩ := text_of_passwords unconfigured ∅
  constructor
  · have h : unconfigured.resolve (queryUrl "s3%26") ∅ = .ok (some (queried "s3&")) := by
      rfl
    have h' : unconfigured.resolve (queryUrl "%2A+x") ∅ = .ok (some (queried "* x")) := by
      rfl
    have hnone : NamesNoTransform (queryUrl "s3%26") ∅ := by
      refine ⟨fun u hu => ?_, rfl⟩
      have hread : read (queryUrl "s3%26") = .ok (some ⟨.plain, [.plain "db1" "3306"], some "shop",
          ofList [("user", "app"), (Key.password, "s3&"), ("a", "1")]⟩) := by
        rfl
      cases hread.symm.trans hu
      decide
    exact ⟨_, _, h, h', hquery "mysql://db1/shop" ["user=app"] ["a=1"] "s3%26" "%2A+x" _ _
      (by decide) (by decide) (by decide) (by decide) (by decide) hnone h h'⟩
  · have h : unconfigured.resolve credentialUrl.text ∅ = .ok (some (credentialed "alpha")) := by
      rfl
    have h' : unconfigured.resolve otherCredentialUrl.text ∅ =
        .ok (some (credentialed "omega")) := by
      rfl
    have hnone : NamesNoTransform credentialUrl.text ∅ := by
      refine ⟨fun u hu => ?_, rfl⟩
      cases credentialUrl.read_text.symm.trans hu
      rfl
    have hiff := hdescriptor credentialUrl 1 [hostAttribute] [] passwordAttribute "omega"
      passwordAttribute_free _ _ rfl hnone h h'
    refine ⟨_, _, h, h', fun htext => ?_⟩
    rcases hiff.mp htext with hvalue | hcovers
    · exact absurd hvalue (by decide)
    · exact absurd (hcovers _ (mem_nameKeys.mpr (.inl rfl))) (by decide)

/-- Of two URLs that are the same but for the password in a descriptor, the printed
properties are not the same. -/
theorem text_shows_password_of_descriptor :
    ∃ r r', unconfigured.resolve "mysql://address=(host=x)(password='alpha')/db" ∅ = .ok (some r) ∧
      unconfigured.resolve "mysql://address=(host=x)(password='omega')/db" ∅ = .ok (some r') ∧
      r.text ≠ r'.text := by
  have h : ∀ password ∈ ["alpha", "omega"],
      unconfigured.resolve ("mysql://address=(host=x)(password='" ++ password ++ "')/db") ∅ =
        .ok (some (ofList [
          ("host.1", "address=(host=x)(password='" ++ password ++ "')"), ("port.1", "3306"),
          ("numHosts", "1"), ("host", "address=(host=x)(password='" ++ password ++ "')"),
          ("port", "3306"), ("dbname", "db")])) := by decide +kernel
  exact ⟨_, _, h "alpha" (by decide), h "omega" (by decide), by decide +kernel⟩

end Context

end DbRoute
