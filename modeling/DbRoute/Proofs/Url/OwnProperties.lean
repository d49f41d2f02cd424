import DbRoute.Proofs.Layers
import DbRoute.Url

/-!
# What a URL itself says

The pairs that a URL itself writes have distinct keys: those of the hosts are
numbered and hold a dot, the others hold none. So each of them is read back as
it was written, whatever the parameters say; and where the URL says nothing
itself, its parameters count, and then what the scheme presets.
-/

namespace DbRoute.Key

/-! ## Keys that do not collide -/

variable {m n : Nat} {key : String}

theorem toString_inj : toString m = toString n ↔ m = n := by
  constructor
  · intro h
    have hdigits : Nat.toDigits 10 m = Nat.toDigits 10 n := by
      rw [← Nat.toList_repr, ← Nat.toList_repr]
      exact congrArg String.toList h
    rw [← Nat.ofDigitChars_ten_toDigits (n := m), hdigits, Nat.ofDigitChars_ten_toDigits]
  · rintro rfl
    rfl

theorem numbered_inj (stem : String) :
    stem ++ "." ++ toString m = stem ++ "." ++ toString n ↔ m = n := by
  rw [← toString_inj]
  constructor
  · intro h
    have hlist := congrArg String.toList h
    simp only [String.toList_append] at hlist
    exact String.toList_inj.mp (List.append_cancel_left hlist)
  · intro h
    rw [h]

theorem indexedHost_inj : indexedHost m = indexedHost n ↔ m = n := numbered_inj host

theorem indexedPort_inj : indexedPort m = indexedPort n ↔ m = n := numbered_inj port

theorem indexedHost_ne_indexedPort : indexedHost m ≠ indexedPort n := by
  intro h
  have hhead := congrArg (fun s => s.toList.head?) h
  simp [indexedHost, indexedPort, host, port] at hhead

theorem indexedHost_ne (h : '.' ∉ key.toList) : indexedHost n ≠ key := by
  rintro rfl
  simp [indexedHost] at h

theorem indexedPort_ne (h : '.' ∉ key.toList) : indexedPort n ≠ key := by
  rintro rfl
  simp [indexedPort] at h

/-- The mark of the reading side holds a dot, too, but starts with another letter. -/
theorem indexedHost_ne_slaveMark : indexedHost n ≠ slaveMark := by
  intro h
  have hhead := congrArg (fun s => s.toList.head?) h
  simp [indexedHost, host, slaveMark] at hhead

theorem indexedPort_ne_slaveMark : indexedPort n ≠ slaveMark := by
  intro h
  have hhead := congrArg (fun s => s.toList.head?) h
  simp [indexedPort, port, slaveMark] at hhead

end DbRoute.Key

namespace DbRoute.UrlParts

open Properties

variable {u : UrlParts} {key : String} {hosts : List Host} {n : Nat}

/-! ## Numbered hosts -/

theorem mem_keys_indexedPairs (h : key ∈ Pairs.keys (indexedPairs n hosts)) :
    ∃ i, n ≤ i ∧ (key = Key.indexedHost i ∨ key = Key.indexedPort i) := by
  induction hosts generalizing n with
  | nil => exact absurd h List.not_mem_nil
  | cons host hosts ih =>
      rcases List.mem_cons.mp h with rfl | h
      · exact ⟨n, Nat.le_refl _, Or.inl rfl⟩
      rcases List.mem_cons.mp h with rfl | h
      · exact ⟨n, Nat.le_refl _, Or.inr rfl⟩
      obtain ⟨i, hi, hkey⟩ := ih h
      exact ⟨i, by omega, hkey⟩

theorem nodup_keys_indexedPairs (n : Nat) (hosts : List Host) :
    (Pairs.keys (indexedPairs n hosts)).Nodup := by
  induction hosts generalizing n with
  | nil => exact List.nodup_nil
  | cons host hosts ih =>
      refine List.nodup_cons.mpr ⟨?_, List.nodup_cons.mpr ⟨?_, ih (n + 1)⟩⟩
      · intro h
        rcases List.mem_cons.mp h with h | h
        · exact Key.indexedHost_ne_indexedPort h
        obtain ⟨i, hi, hkey | hkey⟩ := mem_keys_indexedPairs h
        · have := Key.indexedHost_inj.mp hkey
          omega
        · exact Key.indexedHost_ne_indexedPort hkey
      · intro h
        obtain ⟨i, hi, hkey | hkey⟩ := mem_keys_indexedPairs h
        · exact Key.indexedHost_ne_indexedPort hkey.symm
        · have := Key.indexedPort_inj.mp hkey
          omega

/-- Every host is found under its own number. -/
theorem lookup_indexedPairs (n i : Nat) (hosts : List Host) :
    (indexedPairs n hosts).lookup (Key.indexedHost (n + i)) = hosts[i]?.map (·.name) ∧
    (indexedPairs n hosts).lookup (Key.indexedPort (n + i)) = hosts[i]?.map (·.port) := by
  induction hosts generalizing n i with
  | nil => exact ⟨rfl, rfl⟩
  | cons host hosts ih =>
      simp only [indexedPairs, Pairs.lookup_cons_eq, Key.indexedHost_inj, Key.indexedPort_inj,
        Key.indexedHost_ne_indexedPort, Key.indexedHost_ne_indexedPort.symm, if_false]
      cases i with
      | zero => exact ⟨if_pos rfl, if_pos rfl⟩
      | succ i =>
          have hne : n + (i + 1) ≠ n := by omega
          have hnext : n + (i + 1) = n + 1 + i := by omega
          rw [if_neg hne, if_neg hne, hnext]
          exact ih (n + 1) i

theorem lookup_indexedPairs_of_no_dot (h : '.' ∉ key.toList) :
    (indexedPairs n hosts).lookup key = none := by
  rw [lookup_eq_none_iff]
  intro hm
  obtain ⟨i, _, rfl | rfl⟩ := mem_keys_indexedPairs hm
  · exact Key.indexedHost_ne h rfl
  · exact Key.indexedPort_ne h rfl

/-! ## The pairs that the URL writes -/

/-- The pairs with keys of their own, behind the numbered ones. -/
def unnumberedPairs (u : UrlParts) : List Pair :=
  (Key.hostCount, toString u.hosts.length) :: firstHostPairs u.hosts ++ databasePairs u.database

theorem ownPairs_eq (u : UrlParts) : u.ownPairs = indexedPairs 1 u.hosts ++ u.unnumberedPairs := by
  rw [ownPairs, unnumberedPairs, List.append_assoc]

/-- What there is under the keys of the pairs that are not numbered. -/
theorem keys_unnumberedPairs_sublist (u : UrlParts) :
    (Pairs.keys u.unnumberedPairs).Sublist [Key.hostCount, Key.host, Key.port, Key.database] := by
  cases hh : u.hosts <;> cases hd : u.database <;>
    simp [unnumberedPairs, firstHostPairs, databasePairs, Pairs.keys, hh, hd]

theorem no_dot_of_mem_unnumberedPairs (h : key ∈ Pairs.keys u.unnumberedPairs) :
    '.' ∉ key.toList := by
  have hm := (keys_unnumberedPairs_sublist u).subset h
  simp only [List.mem_cons, List.not_mem_nil, or_false] at hm
  rcases hm with rfl | rfl | rfl | rfl <;> decide

theorem nodup_keys_ownPairs (u : UrlParts) : (Pairs.keys u.ownPairs).Nodup := by
  rw [ownPairs_eq, Pairs.keys, List.map_append]
  refine List.nodup_append.mpr ⟨nodup_keys_indexedPairs 1 u.hosts, ?_, ?_⟩
  · exact List.Nodup.sublist (keys_unnumberedPairs_sublist u) (by decide)
  · -- The keys of one list hold a dot, and those of the other none.
    rintro key hkey _ hother rfl
    have hdot := no_dot_of_mem_unnumberedPairs hother
    exact (lookup_eq_none_iff.mp (lookup_indexedPairs_of_no_dot hdot)) hkey

theorem lookup_ownPairs_of_dot (h : '.' ∈ key.toList) :
    u.ownPairs.lookup key = (indexedPairs 1 u.hosts).lookup key := by
  have hnone : u.unnumberedPairs.lookup key = none :=
    lookup_eq_none_iff.mpr fun hm => no_dot_of_mem_unnumberedPairs hm h
  rw [ownPairs_eq, List.lookup_append, hnone, Option.or_none]

theorem lookup_ownPairs_indexed (u : UrlParts) (i : Nat) :
    u.ownPairs.lookup (Key.indexedHost (i + 1)) = u.hosts[i]?.map (·.name) ∧
    u.ownPairs.lookup (Key.indexedPort (i + 1)) = u.hosts[i]?.map (·.port) := by
  rw [lookup_ownPairs_of_dot (by simp [Key.indexedHost]),
    lookup_ownPairs_of_dot (by simp [Key.indexedPort]), Nat.add_comm]
  exact lookup_indexedPairs 1 i u.hosts

theorem lookup_ownPairs_of_no_dot (h : '.' ∉ key.toList) :
    u.ownPairs.lookup key = u.unnumberedPairs.lookup key := by
  rw [ownPairs_eq, List.lookup_append, lookup_indexedPairs_of_no_dot h, Option.none_or]

theorem lookup_ownPairs_hostCount (u : UrlParts) :
    u.ownPairs.lookup Key.hostCount = some (toString u.hosts.length) := by
  rw [lookup_ownPairs_of_no_dot (by decide)]
  rfl

theorem lookup_ownPairs_host (u : UrlParts) :
    u.ownPairs.lookup Key.host = u.hosts.head?.map (·.name) := by
  rw [lookup_ownPairs_of_no_dot (by decide)]
  cases hh : u.hosts <;> cases hd : u.database <;>
    simp only [unnumberedPairs, firstHostPairs, databasePairs, hh, hd] <;> rfl

theorem lookup_ownPairs_port (u : UrlParts) :
    u.ownPairs.lookup Key.port = u.hosts.head?.map (·.port) := by
  rw [lookup_ownPairs_of_no_dot (by decide)]
  cases hh : u.hosts <;> cases hd : u.database <;>
    simp only [unnumberedPairs, firstHostPairs, databasePairs, hh, hd] <;> rfl

theorem lookup_ownPairs_database (u : UrlParts) :
    u.ownPairs.lookup Key.database = u.database := by
  rw [lookup_ownPairs_of_no_dot (by decide)]
  cases hh : u.hosts <;> cases hd : u.database <;>
    simp only [unnumberedPairs, firstHostPairs, databasePairs, hh, hd] <;> rfl

theorem lookup_ownPairs_eq_none (hdot : '.' ∉ key.toList)
    (hkey : key ∉ [Key.hostCount, Key.host, Key.port, Key.database]) :
    u.ownPairs.lookup key = none := by
  rw [lookup_ownPairs_of_no_dot hdot, lookup_eq_none_iff]
  exact fun h => hkey ((keys_unnumberedPairs_sublist u).subset h)

/-! ## All properties of a URL -/

/-- First what the URL itself says, then its parameters, then its scheme. -/
theorem get?_properties (u : UrlParts) (key : String) :
    u.properties.get? key = (u.ownPairs.lookup key).or
      ((u.parameterPairs.lookup key).or ((preset u.scheme).lookup key)) := by
  have hparameters : (Pairs.keys u.parameterPairs).Nodup :=
    Pairs.nodup_drop Key.hostCount u.parameters.nodup
  have hpreset : (Pairs.keys (preset u.scheme)).Nodup := by
    cases u.scheme <;> decide
  rw [properties, ofList, setAll_append, setAll_append, get?_setAll, get?_setAll, get?_setAll,
    lookup_reverse_of_nodup u.nodup_keys_ownPairs, lookup_reverse_of_nodup hparameters,
    lookup_reverse_of_nodup hpreset, get?_empty, Option.or_none]

theorem lookup_parameterPairs (u : UrlParts) (key : String) :
    u.parameterPairs.lookup key =
      if key = Key.hostCount then none else u.parameters.get? key :=
  Pairs.lookup_drop Key.hostCount key u.parameters.pairs

/-- Where neither the URL itself nor its scheme says anything, the parameters count. -/
theorem get?_properties_eq_parameters (u : UrlParts) (hdot : '.' ∉ key.toList)
    (hkey : key ∉ [Key.hostCount, Key.host, Key.port, Key.database, Key.socketFactory]) :
    u.properties.get? key = u.parameters.get? key := by
  simp only [List.mem_cons, List.not_mem_nil, or_false, not_or] at hkey
  obtain ⟨hcount, hhost, hport, hdatabase, hfactory⟩ := hkey
  have hpreset : (preset u.scheme).lookup key = none := by
    cases u.scheme
    case launched => rw [preset, Pairs.lookup_cons_eq, if_neg hfactory]; rfl
    all_goals rfl
  rw [get?_properties, lookup_ownPairs_eq_none hdot (by simp [hcount, hhost, hport, hdatabase]),
    lookup_parameterPairs, if_neg hcount, hpreset, Option.none_or, Option.or_none]

end DbRoute.UrlParts
