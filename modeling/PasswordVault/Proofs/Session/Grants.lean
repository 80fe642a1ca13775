import PasswordVault.Proofs.Instant.Calendar
import PasswordVault.Proofs.Json.Records
import PasswordVault.Session.TokenGrant

/-!
# Grants — which replies end a refresh

A server grants a token for a number of seconds, which may be any integer of 64 bits. The token expires that
long after the reply, but not every such time is in the calendar, and nothing looks whether it is.

- `TokenGrant.Grants`, `TokenGrant.Refuses`: what a reply means for a refresh;
- `TokenGrant.grants_toJson`: every count of seconds of 64 bits can be granted;
- `TokenGrant.refresh_ends_iff`: a refresh ends with an account or an error, unless the granted time leads
  out of the calendar.
-/

namespace PasswordVault
namespace TokenGrant

open Instant (InCalendar)
open Json.Reader

/-! ## Replies -/

/-- A reply that grants a token. -/
inductive Grants : Http.Reply → TokenGrant → Prop
  | granted {status : Nat} {body : String} {grant : TokenGrant} (success : Http.isSuccess status = true)
      (readable : reader.run? body = some grant) : Grants (.response status body) grant

/-- A reply that grants none, with the error that it leads to. -/
inductive Refuses : Http.Reply → SessionError → Prop
  | broken : Refuses .broken (.transport "the connection broke")
  | failed {status : Nat} {body : String} (failure : Http.isSuccess status = false) :
      Refuses (.response status body) (.tokenRefresh (Http.statusText status ++ ": " ++ body))
  | unreadable {status : Nat} {body : String} (success : Http.isSuccess status = true)
      (unreadable : reader.run? body = none) :
      Refuses (.response status body) (.tokenRefresh "Invalid token response: the body is no grant")
  | failedCut {status : Nat} (failure : Http.isSuccess status = false) :
      Refuses (.cut status) (.tokenRefresh (Http.statusText status ++ ": unknown"))
  | unreadableCut {status : Nat} (success : Http.isSuccess status = true) :
      Refuses (.cut status) (.tokenRefresh "Invalid token response: the body breaks off")

/-- Every reply either grants a token or does not. -/
theorem grants_or_refuses (reply : Http.Reply) : (∃ grant, Grants reply grant) ∨ ∃ e, Refuses reply e := by
  cases reply with
  | broken => exact .inr ⟨_, .broken⟩
  | response status body =>
      cases hstatus : Http.isSuccess status with
      | false => exact .inr ⟨_, .failed hstatus⟩
      | true =>
          cases hbody : reader.run? body with
          | none => exact .inr ⟨_, .unreadable hstatus hbody⟩
          | some grant => exact .inl ⟨grant, .granted hstatus hbody⟩
  | cut status =>
      cases hstatus : Http.isSuccess status with
      | false => exact .inr ⟨_, .failedCut hstatus⟩
      | true => exact .inr ⟨_, .unreadableCut hstatus⟩

theorem read_of_grants {reply : Http.Reply} {grant : TokenGrant} (h : Grants reply grant) :
    read reply = .ok grant := by
  obtain ⟨success, readable⟩ := h
  simp only [read, success, readable, if_true]

theorem read_of_refuses {reply : Http.Reply} {e : SessionError} (h : Refuses reply e) :
    read reply = .error e := by
  cases h with
  | broken => rfl
  | failed failure => simp [read, failure]
  | unreadable success unreadable => simp only [read, success, unreadable, if_true]
  | failedCut failure => simp [read, failure, Http.unknownBody, String.append_assoc]
  | unreadableCut success => simp only [read, success, if_true]

theorem Grants.unique {reply : Http.Reply} {grant grant' : TokenGrant} (h : Grants reply grant)
    (h' : Grants reply grant') : grant = grant' :=
  Except.ok.inj ((read_of_grants h).symm.trans (read_of_grants h'))

theorem Refuses.not_grants {reply : Http.Reply} {e : SessionError} (h : Refuses reply e) (grant : TokenGrant) :
    ¬ Grants reply grant := by
  intro hgrants
  cases (read_of_refuses h).symm.trans (read_of_grants hgrants)

/-! ## The text of a grant -/

def toJson (g : TokenGrant) : Json :=
  .object [("access_token", .string g.accessToken), ("refresh_token", .optString g.refreshToken),
    ("expires_in", .int g.expiresIn)]

/-- Whether a count of seconds is a signed number of 64 bits. -/
def Fits (seconds : Int) : Prop := -0x8000000000000000 ≤ seconds ∧ seconds ≤ 0x7fffffffffffffff

theorem finds_toJson {g : TokenGrant} (h : Fits g.expiresIn) : Finds reader g.toJson g := by
  have haccess := finds_text g.accessToken
  have hrefresh := finds_optString g.refreshToken
  have hexpires := finds_integer h.1 h.2 (by decide) (by decide)
  refine finds_record ["access_token", "refresh_token", "expires_in"]
    [.string g.accessToken, .optString g.refreshToken, .int g.expiresIn] (by decide) rfl ?_ ?_
  · simp [haccess.exact, hrefresh.exact, hexpires.exact]
  · intro depth hdepth b
    simp [int64, haccess.required_bind hdepth, hrefresh.optional_bind hdepth,
      hexpires.required_bind hdepth, and_assoc]

/-- A grant for any count of seconds is read from its text. -/
theorem grants_toJson {g : TokenGrant} (h : Fits g.expiresIn) {status : Nat}
    (success : Http.isSuccess status = true) : Grants (.response status g.toJson.compact) g := by
  have hfinds := finds_toJson h
  have hrefresh : (Json.optString g.refreshToken).nesting = 0 := by
    cases g.refreshToken <;> rfl
  have hlevels : g.toJson.nesting < Json.nestingLimit := by
    simp [toJson, Json.nesting, Json.membersNesting, Json.memberNesting, Json.int, Json.nestingLimit, hrefresh]
  refine .granted success ?_
  rw [run?, Json.parse?_compact hfinds.exact]
  exact (hfinds.reads _ (by decide) _).2 ⟨hlevels, rfl⟩

/-! ## Times -/

/-- Whether a count of seconds is a duration, whose milliseconds are a signed number of 64 bits. -/
def IsDuration (seconds : Int) : Prop := -9223372036854775 ≤ seconds ∧ seconds ≤ 9223372036854775

/-- No longer time leads from one instant to another, so the calendar is the narrower bound. -/
theorem isDuration_of_inCalendar {now : Instant} {seconds : Int} (h : InCalendar (now.seconds + seconds)) :
    IsDuration seconds := by
  have hnow := Instant.inCalendar_seconds now
  simp only [Instant.inCalendar_iff_day, Civil.firstDay, Civil.lastDay] at h hnow
  unfold IsDuration
  omega

/-- The token that a grant gives in place of another. -/
structure Gives (g : TokenGrant) (old : AccountToken) (now : Instant) (t : AccountToken) : Prop where
  access : t.accessToken = g.accessToken
  refresh : t.refreshToken = g.refreshToken.getD old.refreshToken
  expires : t.expirationDate.seconds = now.seconds + g.expiresIn

theorem token?_eq_map (g : TokenGrant) (old : AccountToken) (now : Instant) :
    g.token? old now =
      (now.addSeconds? g.expiresIn).map fun t => ⟨g.accessToken, g.refreshToken.getD old.refreshToken, t⟩ := by
  rw [token?]
  cases now.addSeconds? g.expiresIn <;> rfl

theorem exists_token?_iff (g : TokenGrant) (old : AccountToken) (now : Instant) :
    (∃ t, g.token? old now = some t) ↔ InCalendar (now.seconds + g.expiresIn) := by
  rw [← Instant.exists_addSeconds?_iff, token?_eq_map]
  simp only [← Option.isSome_iff_exists, Option.isSome_map]

theorem gives_of_token? {g : TokenGrant} {old t : AccountToken} {now : Instant}
    (h : g.token? old now = some t) : g.Gives old now t := by
  rw [token?_eq_map, Option.map_eq_some_iff] at h
  obtain ⟨expires, hexpires, rfl⟩ := h
  exact ⟨rfl, rfl, Instant.seconds_of_addSeconds? hexpires⟩

/-! ## Refreshes -/

def noToken (a : Account) : SessionError := .tokenRefresh s!"Account {a.id} has no refresh token"

theorem refresh?_of_none {a : Account} (htoken : a.token = none) (now : Instant) (reply : Http.Reply) :
    refresh? a now reply = some (.error (noToken a)) := by
  rw [refresh?, htoken, noToken]

theorem refresh?_of_grants {a : Account} {old : AccountToken} (htoken : a.token = some old)
    {reply : Http.Reply} {grant : TokenGrant} (h : Grants reply grant) (now : Instant) :
    refresh? a now reply = (grant.token? old now).map fun t => .ok { a with token := some t } := by
  simp only [refresh?, htoken, outcome?, read_of_grants h]

theorem refresh?_of_refuses {a : Account} {old : AccountToken} (htoken : a.token = some old)
    {reply : Http.Reply} {e : SessionError} (h : Refuses reply e) (now : Instant) :
    refresh? a now reply = some (.error e) := by
  simp only [refresh?, htoken, outcome?, read_of_refuses h]

/-- What a refresh of an account may end in after a reply: the account with the token that is granted, or an
error as there is no token to send or none is granted. -/
inductive Ends (a : Account) (now : Instant) (reply : Http.Reply) : Except SessionError Account → Prop
  | refreshed {old t : AccountToken} {grant : TokenGrant} (signedIn : a.token = some old)
      (grants : Grants reply grant) (gives : grant.Gives old now t) :
      Ends a now reply (.ok { a with token := some t })
  | refused {old : AccountToken} {e : SessionError} (signedIn : a.token = some old) (refuses : Refuses reply e) :
      Ends a now reply (.error e)
  | noToken (signedOut : a.token = none) : Ends a now reply (.error (noToken a))

/-- A refresh ends exactly if no time is granted that is longer than a duration or leads out of the calendar.
It ends in the account with the token that is granted or in an error that says what is missing. -/
theorem refresh_ends_iff (a : Account) (now : Instant) (reply : Http.Reply) :
    ((∃ outcome, refresh? a now reply = some outcome) ↔
      ∀ grant, a.token ≠ none → Grants reply grant →
        IsDuration grant.expiresIn ∧ InCalendar (now.seconds + grant.expiresIn)) ∧
      ∀ outcome, refresh? a now reply = some outcome → Ends a now reply outcome := by
  cases htoken : a.token with
  | none =>
      rw [refresh?_of_none htoken]
      refine ⟨iff_of_true ⟨_, rfl⟩ fun _ hne => absurd rfl hne, ?_⟩
      rintro outcome ⟨⟩
      exact .noToken htoken
  | some old =>
      -- Only a grant has a date to compute; every other reply ends in an error, whatever the numbers.
      rcases grants_or_refuses reply with ⟨grant, hgrants⟩ | ⟨e, hrefuses⟩
      · rw [refresh?_of_grants htoken hgrants]
        refine ⟨⟨?_, ?_⟩, ?_⟩
        · rintro ⟨outcome, houtcome⟩ grant' - hgrants'
          obtain rfl := hgrants.unique hgrants'
          obtain ⟨t, ht, -⟩ := Option.map_eq_some_iff.1 houtcome
          have hcalendar := (exists_token?_iff grant old now).1 ⟨t, ht⟩
          exact ⟨isDuration_of_inCalendar hcalendar, hcalendar⟩
        · intro hbounds
          obtain ⟨t, ht⟩ := (exists_token?_iff grant old now).2 (hbounds grant nofun hgrants).2
          exact ⟨_, Option.map_eq_some_iff.2 ⟨t, ht, rfl⟩⟩
        · intro outcome houtcome
          obtain ⟨t, ht, rfl⟩ := Option.map_eq_some_iff.1 houtcome
          exact .refreshed htoken hgrants (gives_of_token? ht)
      · rw [refresh?_of_refuses htoken hrefuses]
        refine ⟨iff_of_true ⟨_, rfl⟩ fun grant _ hgrants => absurd hgrants (hrefuses.not_grants grant), ?_⟩
        rintro outcome ⟨⟩
        exact .refused htoken hrefuses

/-! ## Grants of any length -/

def grantText (seconds : String) : String :=
  "\x7b\"access_token\":\"T2\",\"refresh_token\":null,\"expires_in\":" ++ seconds ++ "\x7d"

theorem grants_hour : Grants (.response 200 (grantText "3600")) ⟨"T2", none, 3600⟩ := by
  have htext : grantText "3600" = (toJson ⟨"T2", none, 3600⟩).compact := by decide +kernel
  rw [htext]
  exact grants_toJson ⟨by decide, by decide⟩ rfl

theorem grants_greatest :
    Grants (.response 200 (grantText "9223372036854775807")) ⟨"T2", none, 9223372036854775807⟩ := by
  have htext : grantText "9223372036854775807" = (toJson ⟨"T2", none, 9223372036854775807⟩).compact := by
    decide +kernel
  rw [htext]
  exact grants_toJson ⟨by decide, by decide⟩ rfl

def signedIn : Account := ⟨"a", "https://vault.example.com", some ⟨"T1", "T1-r", Instant.epoch⟩⟩

/-- A token for an hour keeps the refresh token and expires an hour later. -/
theorem refresh_ends_hour :
    ∃ t : AccountToken,
      refresh? signedIn Instant.epoch (.response 200 (grantText "3600")) =
          some (.ok { signedIn with token := some t }) ∧
        t.accessToken = "T2" ∧ t.refreshToken = "T1-r" ∧ t.expirationDate.seconds = 3600 := by
  obtain ⟨hiff, hends⟩ := refresh_ends_iff signedIn Instant.epoch (.response 200 (grantText "3600"))
  have hbounds : IsDuration 3600 ∧ InCalendar (Instant.epoch.seconds + 3600) :=
    ⟨⟨by decide, by decide⟩, by decide, by decide⟩
  obtain ⟨outcome, houtcome⟩ := hiff.2 fun grant _ hgrants => grants_hour.unique hgrants ▸ hbounds
  cases hends outcome houtcome with
  | @refreshed old t grant hold hgrants hgives =>
      obtain rfl := grants_hour.unique hgrants
      cases hold
      exact ⟨t, houtcome, hgives.access, hgives.refresh, hgives.expires⟩
  | refused _ hrefuses => exact absurd grants_hour (hrefuses.not_grants _)
  | noToken hnone => cases hnone

/-- The greatest number of seconds that can be granted ends a refresh without an outcome, whatever the old
token and the time. -/
theorem refresh?_of_greatest {a : Account} {old : AccountToken} (h : a.token = some old) (now : Instant) :
    refresh? a now (.response 200 (grantText "9223372036854775807")) = none := by
  have hnow := Instant.inCalendar_seconds now
  have hbeyond : ¬ InCalendar (now.seconds + 9223372036854775807) := by
    simp only [Instant.inCalendar_iff_day, Civil.firstDay, Civil.lastDay] at hnow ⊢
    omega
  rw [refresh?_of_grants h grants_greatest, Option.map_eq_none_iff, Option.eq_none_iff_forall_ne_some]
  intro t ht
  exact hbeyond ((exists_token?_iff _ old now).1 ⟨t, ht⟩)

/-- A reply with status 200 and a well-formed grant leaves no outcome. -/
theorem refresh?_greatest :
    refresh? signedIn Instant.epoch (.response 200 (grantText "9223372036854775807")) = none :=
  refresh?_of_greatest rfl Instant.epoch

end TokenGrant
end PasswordVault
