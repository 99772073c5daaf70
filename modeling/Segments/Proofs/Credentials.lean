import Segments.Proofs.Failing
import Segments.Proofs.FormText
import Segments.Storefront.Client

namespace Segments

open Http Sync

namespace Http.Url

/-- Pairs that are put into an address stand in its text as they are in a form. -/
theorem text_withPairs (u : Url) : ∃ front back : List Char, ∀ pairs,
    (u.withPairs pairs).text.toList = front ++ formPairs pairs ++ back := by
  obtain ⟨before, hpairs⟩ : ∃ before : List Char, ∀ pairs,
      u.withPairs pairs = { u with query := some (before ++ formPairs pairs) } := by
    rcases hquery : u.query with _ | _ | ⟨c, query⟩
    · exact ⟨[], fun pairs => by simp [withPairs, hquery]⟩
    · exact ⟨[], fun pairs => by simp [withPairs, hquery]⟩
    · exact ⟨c :: query ++ ['&'], fun pairs => by simp [withPairs, hquery]⟩
  refine ⟨u.scheme ++ "://".toList ++ u.server ++ u.path ++ '?' :: before,
    (u.fragment.map ('#' :: ·)).getD [], fun pairs => ?_⟩
  rw [hpairs]
  simp [text, target]

end Http.Url

namespace Storefront

/-- The course that a request takes whatever the pairs are that go with it: it fails, and tells its
query or not, or it is answered. -/
inductive Course
  | lost (before after : String)
  | refused (reason : String)
  | answered (status : Nat) (body : Except String Text.Bytes)

def Course.outcome (pairs : List (String × String)) : Course → Outcome
  | .lost before after => .failed (before ++ String.ofList (Url.formPairs pairs) ++ after)
  | .refused reason => .failed reason
  | .answered status body => .answered status body

/-- The course that the request of a client takes. -/
def Course.Met (course : Course) (send : Sender) (c : Client) : Prop :=
  send c.productsUrl c.credentials = course.outcome c.credentials

/-- The query is never told of an answer, nor of a request that is given up before there is one. -/
def Course.Silent (course : Course) : Prop :=
  ∀ before after, course ≠ .lost before after

/-- The pairs stand in what is told as a form has them, between parts that do not depend on them. -/
theorem Sender.told_withPairs (kind cause : String) (u : Url) : ∃ before after : String, ∀ pairs,
    told kind (some (u.withPairs pairs).text) cause =
      before ++ String.ofList (Url.formPairs pairs) ++ after := by
  obtain ⟨front, back, htext⟩ := u.text_withPairs
  refine ⟨kind ++ " for url (" ++ String.ofList front, String.ofList back ++ ")" ++ ": " ++ cause,
    fun pairs => ?_⟩
  rw [← String.toList_inj]
  simp [told, htext]

/-- Whatever the servers reply, and be it that they are never asked, all clients of one storefront
meet one course. -/
theorem Sender.exists_course (r : Reply) (base : List Char) : ∃ course : Course,
    ∀ key secret, course.Met (ofReplies fun _ => r) ⟨base, key, secret⟩ := by
  suffices ∃ course : Course, ∀ pairs, ofReplies (fun _ => r)
      (String.ofList base ++ Client.productsPath) pairs = course.outcome pairs by
    obtain ⟨course, hcourse⟩ := this
    exact ⟨course, fun key secret => hcourse (Client.mk base key secret).credentials⟩
  generalize String.ofList base ++ Client.productsPath = address
  unfold ofReplies request
  cases Url.read address with
  | error fault => exact ⟨.refused (refusal fault), fun _ => rfl⟩
  | ok url =>
    dsimp only
    cases url.isWeb with
    | false =>
      obtain ⟨before, after, htold⟩ := told_withPairs "builder error" "URL scheme is not allowed" url
      exact ⟨.lost before after, fun pairs => congrArg Outcome.failed (htold pairs)⟩
    | true =>
      cases r with
      | lost cause =>
        obtain ⟨before, after, htold⟩ := told_withPairs "error sending request" cause url
        exact ⟨.lost before after, fun pairs => congrArg Outcome.failed (htold pairs)⟩
      | lostAt last kind cause => exact ⟨.refused _, fun _ => rfl⟩
      | answered status body => exact ⟨.answered status (.ok body), fun _ => rfl⟩
      | brokenOff status reason => exact ⟨.answered status (.error reason), fun _ => rfl⟩

namespace Client

/-- Whatever a client fails with, it is its fetch that failed. -/
theorem productsFrom_failed {o : Outcome} {f : Failure} (h : productsFrom o = .error f) :
    ∃ reason, f = .fetch reason := by
  unfold productsFrom at h
  split at h
  · cases h
    exact ⟨_, rfl⟩
  · unfold productsOf at h
    split at h
    · cases h
      exact ⟨_, rfl⟩
    · split at h
      · cases h
        exact ⟨_, rfl⟩
      · split at h <;> cases h <;> exact ⟨_, rfl⟩

variable {c d : Client} {send : Sender} {course : Course}

theorem shown_of_base (h : c.base = d.base) : c.shown = d.shown := by
  unfold shown
  rw [h]

/-- Of the rest of the world a client sees no more than the course that its request takes. -/
theorem fetchBy_of_met (h : course.Met send c) :
    c.fetchBy send = productsFrom (course.outcome c.credentials) :=
  congrArg productsFrom h

/-- What is told of two queries is the same only for the same query. -/
theorem lost_inj {before after s t : String}
    (h : productsFrom (.failed (before ++ s ++ after)) =
      productsFrom (.failed (before ++ t ++ after))) : s = t := by
  simp only [productsFrom, Except.error.injEq, Failure.fetch.injEq] at h
  have hlists := congrArg String.toList h
  simp only [String.toList_append] at hlists
  exact String.toList_inj.mp
    (List.append_cancel_left (List.append_cancel_right (List.append_cancel_left hlists)))

/-- What two clients are told that differ in their credentials and meet the same course. -/
theorem fetchBy_eq_iff (hc : course.Met send c) (hd : course.Met send d) :
    c.fetchBy send = d.fetchBy send ↔ course.Silent ∨ c.key = d.key ∧ c.secret = d.secret := by
  rw [fetchBy_of_met hc, fetchBy_of_met hd]
  cases course with
  | lost before after =>
    constructor
    · intro h
      exact .inr (Url.formPairs_inj (String.ofList_inj.mp (lost_inj h)))
    · rintro (h | ⟨hkey, hsecret⟩)
      · exact absurd rfl (h before after)
      · rw [credentials, credentials, hkey, hsecret]
  | refused reason => exact iff_of_true rfl (.inl fun _ _ => Course.noConfusion)
  | answered status body => exact iff_of_true rfl (.inl fun _ _ => Course.noConfusion)

def answer (c : Client) (send : Sender) : Except String (List Json) :=
  match c.fetchBy send with
  | .ok list => .ok list
  | .error (.fetch reason) => .error reason
  | .error f => .error f.message

theorem fetchBy_eq_answer (c : Client) (send : Sender) :
    c.fetchBy send = (c.answer send).mapError .fetch := by
  unfold answer
  cases h : c.fetchBy send with
  | ok list => rfl
  | error f =>
    obtain ⟨reason, rfl⟩ := productsFrom_failed h
    rfl

theorem answer_eq_iff : c.answer send = d.answer send ↔ c.fetchBy send = d.fetchBy send := by
  constructor
  · intro h
    rw [fetchBy_eq_answer, fetchBy_eq_answer, h]
  · intro h
    rw [answer, answer, h]

/-- Two clients that fare differently on the same course both fail, each for a reason of its own. -/
theorem answer_ne (hc : course.Met send c) (hd : course.Met send d)
    (h : c.fetchBy send ≠ d.fetchBy send) :
    ∃ reason reason', reason ≠ reason' ∧ c.answer send = .error reason ∧
      d.answer send = .error reason' := by
  rw [answer, answer]
  rw [fetchBy_of_met hc, fetchBy_of_met hd] at h ⊢
  cases course with
  | lost before after =>
    refine ⟨_, _, ?_, rfl, rfl⟩
    intro hreason
    exact h (congrArg (fun reason => Except.error (Failure.fetch reason)) hreason)
  | refused reason => exact absurd rfl h
  | answered status body => exact absurd rfl h

end Client

end Storefront

namespace Http.Api

open Storefront

/-- What a run that is asked for now makes known when the fetch fails. -/
theorem told_failing {s : System} (hg : s.core.Guarded) (hp : s.Paced)
    (hidle : s.pipeline.isRunning = false) (moments : Moments) (contentType : Option String)
    (body : Text.Bytes) (delay : Nat) (reason : String) :
    let t := s.turn (.serve (.error reason) none delay)
    t.runGuarded.2 = .error (.fetch reason) ∧
    t.runGuarded.1.pipeline.lastError = some ("Upstream fetch failed: " ++ reason) ∧
    (respond moments true t ⟨"POST", "/sync".toList, contentType, body⟩).2 =
      .ofJson 502 (.object [("error", .text reason), ("message", .text "Error syncing products")]) := by
  intro t
  have hresult : t.source.result = .failed (.fetch reason) := rfl
  obtain ⟨hend, hshown⟩ := System.runGuarded_failing (s := t) hg hp hidle hresult
  refine ⟨hend, hshown, ?_⟩
  rw [respond_sync (s := t) hidle, hend]
  rfl

/-- The credentials for a storefront are never shown with its client. They can be seen in the failure
of a fetch, in the error of the run that made it, in the status, and in the answer to a request for a
run, just where a request failed that tells its query. -/
theorem credentials_told {c d : Client} (hbase : c.base = d.base) {send : Sender} {course : Course}
    (hc : course.Met send c) (hd : course.Met send d) :
    let hidden := course.Silent ∨ c.key = d.key ∧ c.secret = d.secret
    c.shown = d.shown ∧
    (c.fetchBy send = d.fetchBy send ↔ hidden) ∧
    ∀ source store ts delay moments contentType body,
      let s := (System.start source store).after ts
      let one := s.turn (.serve (c.answer send) none delay)
      let other := s.turn (.serve (d.answer send) none delay)
      let request : Request := ⟨"POST", "/sync".toList, contentType, body⟩
      s.pipeline.isRunning = false →
      (one.runGuarded.2 = other.runGuarded.2 ↔ hidden) ∧
      (one.runGuarded.1.pipeline.lastError = other.runGuarded.1.pipeline.lastError ↔ hidden) ∧
      ((respond moments true one request).2 = (respond moments true other request).2 ↔ hidden) := by
  intro hidden
  have hfetch : c.fetchBy send = d.fetchBy send ↔ hidden := Client.fetchBy_eq_iff hc hd
  refine ⟨Client.shown_of_base hbase, hfetch, ?_⟩
  intro source store ts delay moments contentType body s one other request hidle
  have hg : s.core.Guarded := System.guarded_after (System.guarded_start source store) ts
  have hp : s.Paced := System.paced_after (System.paced_start source store) ts
  by_cases hsame : c.fetchBy send = d.fetchBy send
  · have hstates : one = other := by
      show s.turn (.serve (c.answer send) none delay) = s.turn (.serve (d.answer send) none delay)
      rw [Client.answer_eq_iff.mpr hsame]
    have hhidden := hfetch.mp hsame
    rw [hstates]
    exact ⟨iff_of_true rfl hhidden, iff_of_true rfl hhidden, iff_of_true rfl hhidden⟩
  · have hseen := fun h => hsame (hfetch.mpr h)
    obtain ⟨reason, reason', hne, hone, hother⟩ := Client.answer_ne hc hd hsame
    have htold := told_failing hg hp hidle moments contentType body delay reason
    have htold' := told_failing hg hp hidle moments contentType body delay reason'
    rw [← hone] at htold
    rw [← hother] at htold'
    obtain ⟨hend, hshown, hanswer⟩ := htold
    obtain ⟨hend', hshown', hanswer'⟩ := htold'
    refine ⟨iff_of_false (fun h => ?_) hseen, iff_of_false (fun h => ?_) hseen,
      iff_of_false (fun h => ?_) hseen⟩
    · exact hne (Failure.fetch.inj (Except.error.inj (hend.symm.trans (h.trans hend'))))
    · have htext := Option.some.inj (hshown.symm.trans (h.trans hshown'))
      have hlists := congrArg String.toList htext
      rw [String.toList_append, String.toList_append] at hlists
      exact hne (String.toList_inj.mp (List.append_cancel_left hlists))
    · have hbody := congrArg Response.body (hanswer.symm.trans (h.trans hanswer'))
      simp only [Response.ofJson, Option.some.injEq, Json.object.injEq, List.cons.injEq,
        Prod.mk.injEq, Json.text.injEq, and_true, true_and] at hbody
      exact hne hbody

def refusing : Sender :=
  .ofReplies fun _ => .lost "connection refused"

/-- What is told of a storefront that is down: the address that was asked, credentials and all. -/
theorem fetchBy_refusing (key secret : String) :
    (Client.mk "http://shop.example".toList key secret).fetchBy refusing = .error (.fetch
      ("Request failed: error sending request for url (http://shop.example/wp-json/wc/v3/products?" ++
        String.ofList (Url.formPairs [("consumer_key", key), ("consumer_secret", secret)]) ++
          "): connection refused")) := by
  have hurl : (Client.mk "http://shop.example".toList key secret).productsUrl =
      "http://shop.example/wp-json/wc/v3/products" := by
    rw [← String.toList_inj]
    simp [Client.productsUrl, Client.productsPath]
  have hread : Url.read "http://shop.example/wp-json/wc/v3/products" = .ok ⟨"http".toList,
      "shop.example".toList, "/wp-json/wc/v3/products".toList, none, none⟩ := by decide +kernel
  have hweb : Url.isWeb ⟨"http".toList, "shop.example".toList, "/wp-json/wc/v3/products".toList,
      none, none⟩ = true := by decide
  unfold Client.fetchBy refusing Sender.ofReplies Sender.request
  simp only [hurl, hread, hweb, if_true, Sender.outcome, Client.productsFrom, Client.credentials]
  refine congrArg (fun reason => Except.error (Failure.fetch reason)) ?_
  rw [← String.toList_inj]
  simp [Sender.told, Url.withPairs, Url.text, Url.target]

theorem fetchBy_refusing_ne :
    (Client.mk "http://shop.example".toList "ck_one" "cs_one").fetchBy refusing ≠
      (Client.mk "http://shop.example".toList "ck_two" "cs_two").fetchBy refusing := by
  rw [fetchBy_refusing, fetchBy_refusing]
  intro h
  have hreason := Failure.fetch.inj (Except.error.inj h)
  exact absurd hreason (by decide +kernel)

theorem credentials_told_lost :
    let c : Client := ⟨"http://shop.example".toList, "ck_one", "cs_one"⟩
    let d : Client := ⟨"http://shop.example".toList, "ck_two", "cs_two"⟩
    let s := System.start (.serving []) .empty
    let one := s.turn (.serve (c.answer refusing) none 0)
    let other := s.turn (.serve (d.answer refusing) none 0)
    let request : Request := ⟨"POST", "/sync".toList, none, []⟩
    (∃ course : Course, course.Met refusing c ∧ course.Met refusing d) ∧
      s.pipeline.isRunning = false ∧ c.shown = d.shown ∧
      (respond (fun _ => "") true one request).2 ≠ (respond (fun _ => "") true other request).2 := by
  intro c d s one other request
  have hidle : s.pipeline.isRunning = false := rfl
  obtain ⟨course, hmet⟩ :=
    Sender.exists_course (.lost "connection refused") "http://shop.example".toList
  have hc : course.Met refusing c := hmet "ck_one" "cs_one"
  have hd : course.Met refusing d := hmet "ck_two" "cs_two"
  have hbase : c.base = d.base := rfl
  obtain ⟨hshown, hfetch, htold⟩ := credentials_told hbase hc hd
  obtain ⟨-, -, hanswer⟩ := htold (.serving []) .empty [] 0 (fun _ => "") none [] hidle
  refine ⟨⟨course, hc, hd⟩, hidle, hshown, ?_⟩
  intro h
  exact fetchBy_refusing_ne (hfetch.mpr (hanswer.mp h))

/-- Two clients of one storefront that is down, with other credentials, are told apart: the failure
tells them. -/
theorem credentials_seen :
    let c : Client := ⟨"http://shop.example".toList, "ck_one", "cs_one"⟩
    let d : Client := ⟨"http://shop.example".toList, "ck_two", "cs_two"⟩
    c.fetchBy refusing = .error (.fetch
      ("Request failed: error sending request for url (http://shop.example/wp-json/wc/v3/products" ++
        "?consumer_key=ck_one&consumer_secret=cs_one): connection refused")) ∧
    c.fetchBy refusing ≠ d.fetchBy refusing := by
  refine ⟨?_, fetchBy_refusing_ne⟩
  rw [fetchBy_refusing]
  exact congrArg (fun reason => Except.error (Failure.fetch reason)) (by decide +kernel)

end Http.Api

end Segments
