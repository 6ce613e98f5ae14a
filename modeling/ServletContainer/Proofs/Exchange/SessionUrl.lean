import ServletContainer.Dispatch.Serve
import ServletContainer.Proofs.Dispatch.Frame
import ServletContainer.Proofs.Exchange.SessionCookie
import ServletContainer.Proofs.Session.Parameters

namespace ServletContainer

/-!
# The session id in a URL

An exchange puts the id of its session into a URL, for clients that send no cookies. The request for such a URL asks for
a session by the first parameter of that name, which is another one where the URL has carried one before.

* `Exchange.Rewrites` — the URLs that are rewritten; `Exchange.encodeUrl_of_rewrites` is what comes of them.
* `askedId` — the id that is asked for with an encoded URL; `find?_encodeUrl` is where it is found.
* `Exchange.session?_of_requested` — the session that an exchange has by then.
-/

namespace Exchange

variable {x : Exchange} {url : String}

/-! ### Rewriting -/

/-- Whether `x` puts ids into `url`: it leads to the same server, and the client is not known to send cookies. -/
structure Rewrites (x : Exchange) (url : String) : Prop where
  tracks : x.sessions.config.tracksUrl = true
  relative : isRelativeUrl url = true
  noCookie : x.sessions.config.tracksCookies = true → x.request.sessionFromCookie = false

/-- Where an exchange `Rewrites` a URL, `encodeUrl` puts the id of the current session in, if there is one. -/
theorem encodeUrl_of_rewrites (h : x.Rewrites url) :
    x.encodeUrl url = (match x.currentSession.1 with
      | none => url
      | some id => ServletContainer.encodeUrl url x.sessions.config.urlParameter id, x.currentSession.2) := by
  have hnot : ¬ ((x.sessions.config.tracksCookies && x.request.sessionFromCookie) || !x.sessions.config.tracksUrl
      || !isRelativeUrl url) = true := by
    have hno := h.noCookie
    cases htracks : x.sessions.config.tracksCookies <;> simp_all [h.tracks, h.relative]
  refine (if_neg hnot).trans ?_
  cases x.currentSession with
  | mk found y => cases found <;> rfl

/-- Elsewhere it gives the URL back and does nothing. -/
theorem encodeUrl_of_not_rewrites (h : ¬ x.Rewrites url) : x.encodeUrl url = (url, x) := by
  refine if_pos (Decidable.not_not.1 fun hnot => h ?_)
  simp only [Bool.or_eq_true, Bool.and_eq_true, Bool.not_eq_true', not_or, not_and, Bool.not_eq_false,
    Bool.not_eq_true] at hnot
  exact ⟨hnot.1.2, hnot.2, hnot.1.1⟩

/-- A URL that is not given back as it is has the id of the current session, which is live. -/
theorem exists_id_of_encodeUrl_ne (h : (x.encodeUrl url).1 ≠ url) : ∃ id, x.Rewrites url ∧
    x.currentSession.1 = some id ∧ (x.sessions.find x.now id).1 = true ∧
    (x.encodeUrl url).1 = ServletContainer.encodeUrl url x.sessions.config.urlParameter id := by
  by_cases hrewrites : x.Rewrites url
  · rw [encodeUrl_of_rewrites hrewrites] at h ⊢
    obtain ⟨-, -, hfound, -⟩ := x.currentSession_spec
    cases hid : x.currentSession.1 with
    | none =>
      rw [hid] at h
      exact absurd rfl h
    | some id => exact ⟨id, hrewrites, rfl, (hfound id hid).2.2, rfl⟩
  · rw [encodeUrl_of_not_rewrites hrewrites] at h
    exact absurd rfl h

end Exchange

/-! ### Asking -/

/-- The id that a client asks for with `url` into which `id` was put: the one that it has carried as `param` before, if
any. -/
def askedId (url param : String) (id : SessionId) : SessionId :=
  (((stripPathParameters (urlPath url)).2.find? fun p => p.1 == param).map Prod.snd).getD id

/-- Where the URL has carried no other value of the parameter, `askedId` is the id that was put in. -/
theorem askedId_eq {url param : String} {id : SessionId}
    (h : ∀ p ∈ (stripPathParameters (urlPath url)).2, p.1 = param → p.2 = id) : askedId url param id = id := by
  unfold askedId
  cases hfind : (stripPathParameters (urlPath url)).2.find? fun p => p.1 == param with
  | none => rfl
  | some p =>
    have hname : p.1 = param := by simpa using List.find?_some hfind
    exact h p (List.mem_of_find?_eq_some hfind) hname

/-- The first parameter of the name counts, and `encodeUrl` puts its own behind the others. -/
theorem find?_encodeUrl {param : String} {id : SessionId} (hparam : Avoids [';', '=', '/', '?', '#'] param)
    (hid : Avoids [';', '/', '?', '#'] id) (url : String) :
    (((stripPathParameters (urlPath (encodeUrl url param id))).2.find? fun p => p.1 == param).map Prod.snd)
      = some (askedId url param id) := by
  rw [stripPathParameters_encodeUrl hparam hid, List.find?_append, askedId]
  cases (stripPathParameters (urlPath url)).2.find? fun p => p.1 == param with
  | none => simp
  | some p => rfl

/-- A client without cookies asks for a session by the path. -/
theorem requestedSession?_of_cookieless {config : SessionConfig} {headers : Headers}
    (hheaders : headers.getAll "cookie" = []) (htracks : config.tracksUrl = true) (params : List (String × String)) :
    requestedSession? config headers params
      = ((params.find? fun p => p.1 == config.urlParameter).map Prod.snd).map fun id => (id, .url) := by
  have hcookie : cookieValue? headers config.cookie.name = none := by simp [cookieValue?, cookiePairs, hheaders]
  rw [requestedSession?, if_pos htracks, hcookie, ite_self, Option.map_none, Option.none_or, Option.map_map]
  rfl

theorem Exchange.session?_of_requested {x : Exchange} {id : SessionId} {source : SessionIdSource}
    (hnone : x.sessionId = none) (hasked : x.request.requestedSession = some (id, source)) :
    (x.session? false).map Prod.fst = some (if (x.sessions.find x.now id).1 = true then some id else none) := by
  rw [BasicAuth.session?_false, Option.map_some, currentSession_eq, hnone, hasked]
  rfl

end ServletContainer
