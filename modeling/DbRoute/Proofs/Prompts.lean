import DbRoute.Proofs.Connecting
import DbRoute.Proofs.Routing

/-!
# What is shown before a connection is made

The prompts for a URL and the target of a direct connection are read off the same
settings, each with defaults of its own. They never disagree: the settings of a URL
always have a host, a port has the same default on both sides, and what a prompt has
beyond the settings it has only where they say nothing.
-/

namespace DbRoute

open Properties Outcome Resolution

/-! ## Prompts -/

/-- There is an entry of that name, and it has this value. -/
def Prompted (prompts : List Prompt) (name : String) (value : Option String) : Prop :=
  ∃ prompt ∈ prompts, prompt.name = name ∧ prompt.value = value

namespace Catalogue

variable {p : Properties} {k : CatalogueEntry} {value : String}

/-- The names of all entries, which are the same for all settings. -/
def names : List String :=
  [Key.host, Key.port, Key.database, Key.user, Key.password] ++ known.map (·.name)

theorem map_name_listing (p : Properties) : (listing p).map (·.name) = names := rfl

theorem nodup_names : names.Nodup := by
  decide +kernel

theorem prompted_of_mem_essentials {prompt : Prompt} (h : prompt ∈ essentials p) :
    Prompted (listing p) prompt.name prompt.value :=
  ⟨prompt, List.mem_append_left _ h, rfl, rfl⟩

/-- A default counts only where the settings say nothing. -/
theorem prompted_known (hk : k ∈ known) (hvalue : p.get? k.name = some value) :
    Prompted (listing p) k.name (some value) := by
  refine ⟨info p k, List.mem_append_right _ (List.mem_map_of_mem hk), rfl, ?_⟩
  show (p.get? k.name <|> k.default) = some value
  rw [hvalue]
  rfl

end Catalogue

/-- The port that is shown is read as the port that is used, also where it is the default. -/
theorem Properties.number?_of_port_eq_ok {p : Properties} {n : Nat} (h : p.port = .ok n) :
    number? maxPort ((p.get? Key.port).getD (toString defaultPort)) = some n := by
  unfold Properties.port at h
  cases hraw : p.get? Key.port with
  | none =>
      rw [hraw] at h
      cases h
      exact number?_toString (by decide)
  | some raw =>
      rw [hraw] at h
      dsimp only at h
      rw [Option.getD_some]
      cases hnumber : number? maxPort raw with
      | none =>
          rw [hnumber] at h
          cases h
      | some port =>
          rw [hnumber] at h
          cases h
          rfl

/-! ## Settings -/

/-- The URL's layer has a host, and the overrides can only have another. -/
theorem Context.get?_host_of_resolve {c : Context} {url : String} {overrides r : Properties}
    (hnone : NamesNoTransform url overrides) (h : c.resolve url overrides = .ok (some r)) :
    r.get? Key.host = some r.host := by
  obtain ⟨u, hread, hmerge⟩ := exists_merge_of_resolve hnone h
  obtain ⟨configurations, _, rfl⟩ := merge_eq_ok.mp hmerge
  obtain ⟨first, rest, hhosts⟩ :=
    List.exists_cons_of_ne_nil (UrlParts.hosts_ne_nil_of_read hread)
  have hfirst : u.properties.get? Key.host = some first.name :=
    (u.addresses.first first (by rw [hhosts]; rfl)).1
  rw [Properties.host, get?_overlay, get?_overlay, get?_addEmbedding _ _ _ (by decide), hfirst]
  cases (overrides.erase Key.hostCount).get? Key.host <;> rfl

/-! ## Prompts and direct connections -/

/-- What is shown is what the target has: its host, its port in digits, its database if
it has one, and of its settings the credentials and whatever the catalogue knows. No
name is shown twice. -/
structure PromptsFor (target : ServerTarget) (prompts : List Prompt) : Prop where
  nodup : (prompts.map (·.name)).Nodup
  host : Prompted prompts Key.host (some target.host)
  port : ∃ raw, Prompted prompts Key.port (some raw) ∧ number? maxPort raw = some target.port
  database : Prompted prompts Key.database target.database
  user : Prompted prompts Key.user (target.properties.get? Key.user)
  password : Prompted prompts Key.password (target.properties.get? Key.password)
  known : ∀ k ∈ Catalogue.known, ∀ value, target.properties.get? k.name = some value →
    Prompted prompts k.name (some value)

theorem Catalogue.promptsFor_listing {url : String} {p : Properties} {target : ServerTarget}
    (htarget : Plan.serverTarget url p = .ok target) (hhost : p.get? Key.host = some p.host) :
    PromptsFor target (listing p) := by
  obtain ⟨port, hport, rfl⟩ := map_eq_ok.mp htarget
  have hessential : ∀ prompt ∈ essentials p, Prompted (listing p) prompt.name prompt.value :=
    fun _ => prompted_of_mem_essentials
  constructor
  · rw [map_name_listing]
    exact nodup_names
  · have hentry := hessential _ (List.mem_cons_self ..)
    rwa [hhost] at hentry
  · exact ⟨_, hessential _ (.tail _ (.head _)), number?_of_port_eq_ok hport⟩
  · exact hessential _ (.tail _ (.tail _ (.head _)))
  · exact hessential _ (.tail _ (.tail _ (.tail _ (.head _))))
  · exact hessential _ (.tail _ (.tail _ (.tail _ (.tail _ (.head _)))))
  · exact fun k hk value hvalue => prompted_known hk hvalue

namespace Driver

variable {d : Driver} {connector : Connector} {url : String} {overrides : Properties}
  {t : Tracking} {plan : Plan} {target : ServerTarget}

theorem mem_asked_iff :
    plan ∈ (d.connect connector url overrides t).asked ↔
      d.plan? url overrides = .ok (some plan) := by
  rcases hplan : d.plan? url overrides with fault | _ | made
  · simp [connect_of_fault hplan]
  · simp [connect_of_declined (plan?_eq_none.mp hplan)]
  · cases hconnector : connector made with
    | error cause => simp [connect_of_refusal hplan hconnector, eq_comm]
    | ok session => simp [connect_of_session hplan hconnector, eq_comm]

/-- Behind a direct request for a plain URL there are settings, which have its target. -/
theorem exists_settings_of_asked (hscheme : Scheme.ofUrl? url = some .plain)
    (h : .direct target ∈ (d.connect connector url overrides t).asked) :
    ∃ settings, d.context.resolve url overrides = .ok (some settings) ∧
      Plan.serverTarget url settings = .ok target := by
  rw [mem_asked_iff, plan?, hscheme] at h
  obtain ⟨settings?, hsettings, h⟩ := bind_eq_ok.mp h
  cases settings? with
  | none => cases h
  | some settings =>
      obtain ⟨plan, hplan, ⟨⟩⟩ := bind_eq_ok.mp h
      obtain ⟨count, _, hmade⟩ := Plan.ofSettings_eq_ok.mp hplan
      exact ⟨settings, hsettings, Plan.ofCount_eq_direct hmade.ofCount_eq⟩

/-- What is shown for a plain URL is what is used for it, whatever the overrides,
configurations, environment and connector. If no transform is asked for and the
connector is asked for a direct connection, then there are prompts, and they show its
target. And settings that do not resolve fail the request and the prompts alike. -/
theorem prompts_show_target (d : Driver) (connector : Connector) (url : String)
    (overrides : Properties) (t : Tracking) (hscheme : Scheme.ofUrl? url = some .plain) :
    (NamesNoTransform url overrides →
      ∀ target, .direct target ∈ (d.connect connector url overrides t).asked →
        ∃ prompts, d.context.prompts url overrides = .ok prompts ∧ PromptsFor target prompts) ∧
    ∀ fault, d.context.resolve url overrides = .error fault →
      (d.connect connector url overrides t).outcome = .error fault ∧
        d.context.prompts url overrides = .error fault := by
  constructor
  · intro hnone target hasked
    obtain ⟨settings, hsettings, htarget⟩ := exists_settings_of_asked hscheme hasked
    refine ⟨Catalogue.listing settings, ?_, ?_⟩
    · rw [Context.prompts, if_pos hscheme, hsettings]
      rfl
    · exact Catalogue.promptsFor_listing htarget (Context.get?_host_of_resolve hnone hsettings)
  · intro fault hfault
    constructor
    · rw [connect_of_fault (plan?_of_unresolved hscheme hfault)]
    · rw [Context.prompts, if_pos hscheme, hfault]
      rfl

/-- A host and a port in the query, which do not count, and a user, who does. -/
def unnamedHostUrl : String := "MySQL://?host=elsewhere&port=1&user=app"

/-- A port with blanks and zeros around its number. -/
def paddedPort : Properties := .ofList [(Key.port, " 03307\t"), (Key.password, "s3")]

/-- A connector that has a session for every plan. -/
def obliging : Connector := fun _ => .ok ⟨none, none, false⟩

def unnamedHostTarget : ServerTarget where
  host := "localhost"
  port := 3307
  database := none
  url := unnamedHostUrl
  properties := .ofList [(Key.host, "localhost"), (Key.port, " 03307\t"), (Key.user, "app"),
    (Key.indexedHost 1, "localhost"), (Key.indexedPort 1, "3306"), (Key.hostCount, "1"),
    (Key.password, "s3")]

/-- The prompts have the host that stands for none and the port as the caller writes it. -/
theorem prompts_show_target_unnamedHost :
    ∃ prompts, bareDriver.context.prompts unnamedHostUrl paddedPort = .ok prompts ∧
      Prompted prompts Key.host (some "localhost") ∧
      (∃ raw, Prompted prompts Key.port (some raw) ∧ number? maxPort raw = some 3307) ∧
      Prompted prompts Key.database none ∧ Prompted prompts Key.user (some "app") ∧
      Prompted prompts Key.password (some "s3") := by
  have hasked : .direct unnamedHostTarget ∈
      (bareDriver.connect obliging unnamedHostUrl paddedPort {}).asked :=
    mem_asked_iff.mpr (by decide +kernel)
  have hread : UrlParts.read unnamedHostUrl = .ok (some
      ⟨.plain, [Host.localhost], none,
        ofList [(Key.host, "elsewhere"), (Key.port, "1"), (Key.user, "app")]⟩) := by
    decide +kernel
  have hnone : NamesNoTransform unnamedHostUrl paddedPort := by
    refine ⟨fun u hu => ?_, by decide⟩
    cases hread.symm.trans hu
    decide
  obtain ⟨hshown, _⟩ := prompts_show_target bareDriver obliging unnamedHostUrl paddedPort {}
    (by decide +kernel)
  obtain ⟨prompts, hprompts, hfor⟩ := hshown hnone _ hasked
  exact ⟨prompts, hprompts, hfor.host, hfor.port, hfor.database, hfor.user, hfor.password⟩

end Driver

end DbRoute
