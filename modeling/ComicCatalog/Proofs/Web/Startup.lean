import ComicCatalog.Proofs.Net.Header
import ComicCatalog.Web.Startup

/-! # Starting with checked settings

Settings are checked before a service starts with them. The check asks for a web address as the
referer, but not for one that can be sent, and does not look at the user agent: the relay takes
both as fields of its requests, and refuses those with controls in them.
-/

namespace ComicCatalog

/-! ## Settings that pass -/

namespace Settings

theorem startsAsWebAddress_iff {value : String} : startsAsWebAddress value = true ↔
    ∃ scheme rest, (scheme = "http://" ∨ scheme = "https://") ∧ value = scheme ++ rest := by
  have hfront : ∀ scheme : String, scheme.toList.isPrefixOf value.toList = true ↔
      ∃ rest, value = scheme ++ rest := by
    intro scheme
    rw [List.isPrefixOf_iff_prefix]
    constructor
    · rintro ⟨rest, hrest⟩
      refine ⟨String.ofList rest, ?_⟩
      rw [← String.toList_inj, String.toList_append, String.toList_ofList, hrest]
    · rintro ⟨rest, rfl⟩
      exact ⟨rest.toList, String.toList_append.symm⟩
  simp only [startsAsWebAddress, Bool.or_eq_true, hfront, exists_and_left, or_and_right, exists_or,
    exists_eq_left]

/-- Exactly these settings pass the check. -/
theorem check_eq_ok_iff {settings : Settings} : settings.check = .ok () ↔
    settings.server.port ≠ 0 ∧ settings.catalog.pageSize ≠ 0 ∧ settings.proxy.timeoutSecs ≠ 0 ∧
      (∀ referer, settings.proxy.referer = some referer → startsAsWebAddress referer = true) ∧
      ∀ origin ∈ settings.cors.allowedOrigins, startsAsWebAddress origin = true := by
  have hfaults : settings.check = .ok () ↔ settings.faults = [] := by
    unfold check
    cases settings.faults <;> simp
  rw [hfaults, faults]
  simp

example : ({} : Settings).check = .ok () := by decide

end Settings

/-! ## Relays of settings -/

/-- Neither text that a relay sends with its requests has a control. -/
def ProxySettings.IsSendable (settings : ProxySettings) : Prop :=
  Headers.IsSendable settings.userAgent ∧
    ∀ referer, settings.referer = some referer → Headers.IsSendable referer

theorem RelayClient.ofSettings_eq_ok_iff {settings : ProxySettings} {relay : RelayClient} :
    ofSettings settings = .ok relay ↔
      relay = ⟨settings.userAgent, settings.referer⟩ ∧ settings.IsSendable := by
  have hreferer : settings.referer.all Headers.isValue = true ↔
      ∀ referer, settings.referer = some referer → Headers.IsSendable referer := by
    simp only [Option.all_eq_true, Headers.isValue_iff]
  rw [ProxySettings.IsSendable, ← hreferer, ← Headers.isValue_iff, ofSettings]
  cases settings.referer.all Headers.isValue <;> cases Headers.isValue settings.userAgent <;>
    simp [eq_comm]

/-- With its database open, a start fails on the relay or not at all. -/
theorem Startup.prepare_relay_iff [DatabaseFiles] {settings : Settings} {content : Bytes} {database : Database}
    (hopen : Database.ofFile settings.database.path content = .ok database) :
    (∃ fault, prepare settings content = .error (.relay fault)) ↔ ¬settings.proxy.IsSendable := by
  unfold prepare
  simp only [hopen]
  cases hrelay : RelayClient.ofSettings settings.proxy with
  | error fault =>
      have hunsendable : ¬settings.proxy.IsSendable := by
        intro hsendable
        rw [RelayClient.ofSettings_eq_ok_iff.mpr ⟨rfl, hsendable⟩] at hrelay
        cases hrelay
      simp [hunsendable]
  | ok relay => simp [(RelayClient.ofSettings_eq_ok_iff.mp hrelay).2]

/-- The relay of settings that pass the check can be set up exactly if neither its user agent nor
its referer has a control in it, and a start that opens its database fails exactly if one has. In
the referer of such settings controls stand behind the scheme only. -/
theorem relay_of_checked_settings [DatabaseFiles] {settings : Settings}
    (hcheck : settings.check = .ok ()) :
    (∀ relay, RelayClient.ofSettings settings.proxy = .ok relay ↔
      relay = ⟨settings.proxy.userAgent, settings.proxy.referer⟩ ∧ settings.proxy.IsSendable) ∧
    (∀ content database, Database.ofFile settings.database.path content = .ok database →
      ((∃ fault, Startup.prepare settings content = .error (.relay fault)) ↔
        ¬settings.proxy.IsSendable)) ∧
    ∀ referer, settings.proxy.referer = some referer →
      ∃ scheme rest, (scheme = "http://" ∨ scheme = "https://") ∧ referer = scheme ++ rest ∧
        (Headers.IsSendable referer ↔ Headers.IsSendable rest) := by
  refine ⟨fun relay => RelayClient.ofSettings_eq_ok_iff, ?_, ?_⟩
  · exact fun content database hopen => Startup.prepare_relay_iff hopen
  · intro referer hreferer
    have hweb := (Settings.check_eq_ok_iff.mp hcheck).2.2.2.1 referer hreferer
    obtain ⟨scheme, rest, hscheme, rfl⟩ := Settings.startsAsWebAddress_iff.mp hweb
    have hsendable : Headers.IsSendable scheme := by rcases hscheme with rfl | rfl <;> decide
    refine ⟨scheme, rest, hscheme, rfl, ?_⟩
    rw [Headers.isSendable_append, and_iff_right hsendable]

/-- Tabs and the controls beyond ASCII can be sent. -/
theorem relay_of_checked_settings_tab :
    let settings : Settings :=
      { proxy := { userAgent := "a\tb", referer := some "https://example.org/\u0085" } }
    settings.check = .ok () ∧
      RelayClient.ofSettings settings.proxy = .ok ⟨"a\tb", some "https://example.org/\u0085"⟩ := by
  intro settings
  have hcheck : settings.check = .ok () := by decide
  have hsendable : settings.proxy.IsSendable := by
    refine ⟨by decide, ?_⟩
    rintro referer ⟨⟩
    decide
  exact ⟨hcheck, ((relay_of_checked_settings hcheck).1 _).mpr ⟨rfl, hsendable⟩⟩

/-- A line break in the referer passes the check and cannot be sent. -/
theorem checked_settings_without_relay :
    let settings : Settings := { proxy := { referer := some "https://example.org/\n" } }
    settings.check = .ok () ∧ ¬∃ relay, RelayClient.ofSettings settings.proxy = .ok relay := by
  refine ⟨by decide, ?_⟩
  rintro ⟨relay, hrelay⟩
  obtain ⟨-, -, hsendable⟩ := RelayClient.ofSettings_eq_ok_iff.mp hrelay
  exact absurd (hsendable _ rfl) (by decide)

end ComicCatalog
