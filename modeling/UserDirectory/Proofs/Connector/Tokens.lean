import UserDirectory.Client.Token
import UserDirectory.Proofs.Connector.Accepted
import UserDirectory.Proofs.Connector.Permissions

/-!
# Handles and their tokens

A handle is used for some seconds less than its token lives, and a configuration in
which nothing would be left of that time is refused. Two things take from this margin: a
token counts its life from the whole second in which it was issued, and the last moment
at which a handle is still found is one at which it lives. What remains is a token that
is good for more than four seconds whenever its handle is returned
(`Connector.client_token_unexpired`).

What a handle is stays open. All that is asked is that a handle made in a call carries a
token issued at the time of this call, for the lifetime of the settings.
-/

namespace UserDirectory

/-- **An accepted lifetime outlasts the margin.** -/
theorem ConnectorConfig.lt_tokenLifetime_of_validate {c : ConnectorConfig}
    (h : c.validate = .ok ()) : tokenRefreshMargin < c.tokenLifetime := by
  obtain ⟨_, -, h⟩ := bind_eq_ok_iff.1 h
  by_contra hshort
  rw [if_pos (Nat.le_of_not_lt hshort)] at h
  obtain ⟨_, hrefused, -⟩ := bind_eq_ok_iff.1 h
  exact absurd hrefused nofun

/-- A token that can name its end lives for its whole lifetime. -/
theorem TokenClaims.expiresAt_issue {client tokenId : String} {scopes : TokenScopes}
    {lifetime now : Nat} (h : ((now + lifetime : Nat) : Int) ≤ maxTime) :
    (issue client scopes lifetime now tokenId).expiresAt = (now + lifetime : Nat) := by
  show min ((now : Int) + min (lifetime : Int) maxTime) maxTime = _
  rw [min_eq_left (by omega : (lifetime : Int) ≤ maxTime), ← Nat.cast_add, min_eq_left h]

namespace Connector

variable {H : Type} {s : ConnectorSettings} {history : List (ClientCall H)} {c : ClientCall H}
  {cache : TtlCache H}

/-- **A handle that is still used has a token that is still good**: at any time up to the
handle's last, the token issued when the handle was made has more than four seconds. -/
theorem lt_expiresAt_of_le_handleLifetime (hmargin : tokenRefreshMargin < s.tokenLifetime)
    {made now : Nat} (hused : now ≤ made + s.handleLifetime) :
    now + 4 * nanosPerSecond < (made / nanosPerSecond + s.tokenLifetime) * nanosPerSecond := by
  -- less than a second is lost when the token is issued
  have hissued : made < made / nanosPerSecond * nanosPerSecond + nanosPerSecond :=
    Nat.lt_div_mul_add (by decide)
  have hlifetime : s.handleLifetime + tokenRefreshMargin * nanosPerSecond =
      s.tokenLifetime * nanosPerSecond := by
    unfold ConnectorSettings.handleLifetime
    rw [← Nat.add_mul, Nat.sub_add_cancel hmargin.le]
  have hfive : tokenRefreshMargin * nanosPerSecond = 4 * nanosPerSecond + nanosPerSecond := rfl
  rw [Nat.add_mul]
  omega

/-- **No handle is returned with a token that is about to expire.** Take a connector with
the token lifetime of an accepted configuration, and any run in which each handle that is
made carries a token issued at the time of its call, for this lifetime and the permissions
asked for. Then the handle that the last call of the run returns carries a token that
expires more than four seconds after the call. -/
theorem client_token_unexpired {config : ConnectorConfig} (hvalid : config.validate = .ok ())
    (hlifetime : s.tokenLifetime = config.tokenLifetime) (client : String)
    {claims : H → TokenClaims} (h : ClientRun s (c :: history) cache)
    (hissued : ∀ w ∈ c :: history, ∀ model scopes handle,
      ⟨.handle model scopes, .ok handle⟩ ∈ w.turns →
        ∃ tokenId, claims handle =
          .issue client scopes s.tokenLifetime (w.time / nanosPerSecond : Nat) tokenId)
    (hfits : ∀ w ∈ c :: history, ∀ handle, w.Made s handle →
      ((w.time / nanosPerSecond + s.tokenLifetime : Nat) : Int) ≤ maxTime)
    {directory : Directory (Dialogue H)} (hdirectory : c.outcome = .ok directory) :
    ∃ handle, directory = spokenDirectory handle ∧
      (c.time : Int) + 4 * nanosPerSecond < (claims handle).expiresAt * nanosPerSecond := by
  obtain ⟨handle, hhandle, w, hw, -, hmade, -, hused⟩ := h.exists_made hdirectory
  obtain ⟨tokenId, hclaims⟩ := hissued w hw _ _ handle hmade
  refine ⟨handle, hhandle, ?_⟩
  rw [hclaims, TokenClaims.expiresAt_issue (hfits w hw handle hmade)]
  have hmargin : tokenRefreshMargin < s.tokenLifetime :=
    hlifetime ▸ ConnectorConfig.lt_tokenLifetime_of_validate hvalid
  exact_mod_cast lt_expiresAt_of_le_handleLifetime hmargin hused

/-- A handle made just before a second ends is found a second later, at its last moment,
and its token has four seconds and one nanosecond left. Here a handle is what its token
claims. -/
theorem client_token_unexpired_last_moment :
    let s := { grantlessSettings with tokenLifetime := 6 }
    let config : ConnectorConfig :=
      { domain := "example.org", clientId := "client", clientSecret := "secret"
        connection := "Users", tokenLifetime := 6 }
    let issued := TokenClaims.issue "client" .empty 6 (999999999 / nanosPerSecond : Nat) "token"
    config.validate = .ok () ∧
      (∃ cache, ClientRun s
        [findingCall none 1999999999 issued, makingCall s none 999999999 issued] cache) ∧
      ∃ handle, spokenDirectory issued = spokenDirectory handle ∧
        (1999999999 : Int) + 4 * nanosPerSecond < handle.expiresAt * nanosPerSecond := by
  intro s config issued
  have hvalid : config.validate = .ok () := by decide +kernel
  obtain ⟨_, hfirst⟩ := ClientRun.start.making (s := s) none 999999999 issued nofun nofun
  have hused : 1999999999 ≤ 999999999 + (6 - tokenRefreshMargin) * nanosPerSecond := by decide
  obtain ⟨cache, hsecond⟩ := hfirst.finding none
    (List.forall_mem_singleton.2 (by decide : (999999999 : Nat) ≤ 1999999999))
    List.mem_cons_self hused
  refine ⟨hvalid, ⟨cache, hsecond⟩, client_token_unexpired hvalid rfl "client" hsecond ?_ ?_ rfl⟩
  · intro w hw model scopes handle hmem
    rcases List.mem_cons.1 hw with rfl | hw
    · exact absurd (List.mem_singleton.1 hmem) nofun
    · obtain rfl := List.mem_singleton.1 hw
      obtain ⟨rfl, rfl⟩ := handle_of_mem_makingCall hmem
      exact ⟨"token", rfl⟩
  · intro w hw handle hmade
    have hfits : ((999999999 / nanosPerSecond + 6 : Nat) : Int) ≤ maxTime := by decide
    rcases List.mem_cons.1 hw with rfl | hw
    · exact absurd (List.mem_singleton.1 hmade) nofun
    · obtain rfl := List.mem_singleton.1 hw
      exact hfits

end Connector

end UserDirectory
