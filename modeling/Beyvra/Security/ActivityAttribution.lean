import Beyvra.Security.UserActivity
import Mathlib.Data.List.Induction

namespace Beyvra

namespace UserActivities

def Call.view? : Call → Option (List User × Request)
  | .view users r => some (users, r)
  | .response _ _ => none

def lastView (calls : List Call) : Option (List User × Request) := (calls.filterMap Call.view?).getLast?

def ownView (calls : List Call) (r : Request) : Option (List User × Request) :=
  lastView (calls.filter (·.request.id = r.id))

-- The object, had it seen only this request
def alone (backend : Backend) (calls : List Call) (r : Request) : Middleware :=
  match ownView calls r with
  | some (users, own) => processView backend {} users own
  | none => {}

def Attributed (backend : Backend) (calls : List Call) : Prop :=
  ∀ (before : List Call) (r : Request) (statusCode : Nat) (after : List Call),
    calls = before ++ .response r statusCode :: after →
      processResponse (handled backend before) r statusCode = processResponse (alone backend before r) r statusCode

def ReadsEmail (r : Request) : Prop := r.method = "POST" ∧ r.path ∈ [loginUrl, createUserUrl, forgotPasswordUrl]

-- What a call must find on the object for the request to get its own records
def Undisturbed (backend : Backend) (before : List Call) : Call → Prop
  | .view _ r => r.emailField ≠ none ∨ ¬ReadsEmail r ∨ (handled backend before).userEmail = .none
  | .response r _ =>
    (∃ users own, lastView before = some (users, own) ∧ own.id = r.id ∧
      ∃ user, findByEmail backend users (handled backend before).userEmail = .ok user) ∨
    ((handled backend before).toCaptured = {} ∧ (alone backend before r).toCaptured = {})

variable {backend : Backend} {users : List User} {r : Request} {before after calls : List Call} {m : Middleware}

theorem handled_append : handled backend (before ++ calls) = calls.foldl (step backend) (handled backend before) :=
  List.foldl_append

theorem lastView_append_view : lastView (before ++ [.view users r]) = some (users, r) := by
  simp [lastView, List.filterMap_append, Call.view?]

theorem lastView_append_response {statusCode : Nat} : lastView (before ++ [.response r statusCode]) = lastView before := by
  simp [lastView, List.filterMap_append, Call.view?]

-- The calls after the last view are responses, which leave the object and the views alone.
theorem exists_lastView {own : Request} (h : lastView calls = some (users, own)) :
    ∃ before after, calls = before ++ .view users own :: after ∧
      handled backend calls = processView backend (handled backend before) users own ∧
      ∀ call ∈ after, call.view? = none := by
  induction calls using List.reverseRecOn with
  | nil => cases h
  | append_singleton calls call ih =>
    cases call with
    | view users' r' =>
      obtain ⟨rfl, rfl⟩ : users' = users ∧ r' = own := by simpa [lastView_append_view] using h
      exact ⟨calls, [], rfl, handled_append, nofun⟩
    | response r' statusCode =>
      rw [lastView_append_response] at h
      obtain ⟨before, after, rfl, hhandled, hquiet⟩ := ih h
      refine ⟨before, after ++ [.response r' statusCode], by simp, ?_, ?_⟩
      · rw [handled_append, hhandled]
        rfl
      · intro call hcall
        rcases List.mem_append.mp hcall with hcall | hcall
        · exact hquiet call hcall
        · obtain rfl := List.mem_singleton.mp hcall
          rfl

theorem ownView_of_last {own : Request} (hquiet : ∀ call ∈ after, call.view? = none) (hid : own.id = r.id) :
    ownView (before ++ .view users own :: after) r = some (users, own) := by
  have hrest : (after.filter (·.request.id = r.id)).filterMap Call.view? = [] :=
    List.filterMap_eq_nil_iff.mpr fun call hcall => hquiet call (List.mem_of_mem_filter hcall)
  have hown : (Call.view users own).request.id = r.id := hid
  simp [ownView, lastView, hown, Call.view?, hrest]

theorem checkAt_eq_none {url method : String} {user : Option User} (h : ¬(r.path = url ∧ r.method = method)) :
    checkAt r url method user = none :=
  if_neg h

-- Where the address is not read, the check of the address's user gives nothing to log.
theorem capture_congr (h : ¬ReadsEmail r) (user user' : Option User) :
    capture backend users r user = capture backend users r user' := by
  have hunread : ∀ url ∈ [loginUrl, createUserUrl, forgotPasswordUrl], ¬(r.path = url ∧ r.method = "POST") := by
    rintro url hurl ⟨rfl, hmethod⟩
    exact h ⟨hmethod, hurl⟩
  have hlogin : ∀ user, checkLoginActivity r user = none := fun _ => checkAt_eq_none (hunread _ (by simp))
  have hsignup : ∀ user, checkSignupActivity r user = none := fun _ => checkAt_eq_none (hunread _ (by simp))
  simp only [capture, hlogin, hsignup]

theorem capture_unread (h : ¬ReadsEmail r) (user : Option User) :
    (capture backend users r user).signupUser = none ∧ (capture backend users r user).forgotPasswordUser = none := by
  constructor
  · exact checkAt_eq_none fun hat => h ⟨hat.2, by simp [hat.1]⟩
  · exact checkAt_eq_none fun hat => h ⟨hat.2, by simp [hat.1]⟩

theorem processResponse_congr {m' : Middleware} (statusCode : Nat) (hcaptured : m.toCaptured = m'.toCaptured)
    (hemail : m.userEmail = m'.userEmail ∨ m.signupUser = none ∧ m.forgotPasswordUser = none) :
    processResponse m r statusCode = processResponse m' r statusCode := by
  obtain ⟨captured, email⟩ := m
  obtain ⟨captured', email'⟩ := m'
  obtain rfl : captured = captured' := hcaptured
  rcases hemail with rfl | ⟨hsignup, hforgot⟩
  · rfl
  · simp only at hsignup hforgot
    simp only [processResponse, hsignup, hforgot]

theorem processView_of_ok {user : Option User} (hfind : findByEmail backend users (r.emailField.getD m.userEmail) = .ok user) :
    processView backend m users r = { capture backend users r user with userEmail := r.emailField.getD m.userEmail } := by
  simp only [processView, hfind]

theorem processView_userEmail : (processView backend m users r).userEmail = r.emailField.getD m.userEmail := by
  simp only [processView]
  split <;> rfl

-- Its own view put on the object what it would have put on a new one, as far as the response reads it.
theorem processView_own {asked : Request} (statusCode : Nat)
    (hundisturbed : r.emailField ≠ none ∨ ¬ReadsEmail r ∨ m.userEmail = .none)
    (hfound : ∃ user, findByEmail backend users (processView backend m users r).userEmail = .ok user) :
    processResponse (processView backend m users r) asked statusCode =
      processResponse (processView backend {} users r) asked statusCode := by
  obtain ⟨user, hfound⟩ := hfound
  rw [processView_userEmail] at hfound
  by_cases hsame : r.emailField.getD m.userEmail = r.emailField.getD .none
  · have hview : processView backend m users r = processView backend {} users r := by
      rw [processView_of_ok hfound, processView_of_ok (m := {}) (hsame ▸ hfound), hsame]
    rw [hview]
  · have hemail : r.emailField = none := by
      by_contra hsome
      obtain ⟨email, hsome⟩ := Option.ne_none_iff_exists'.mp hsome
      exact hsame (by rw [hsome]; rfl)
    have hunread : ¬ReadsEmail r := by
      rcases hundisturbed with hsome | hunread | hunset
      · exact absurd hemail hsome
      · exact hunread
      · exact absurd (by rw [hunset]) hsame
    have halone : findByEmail backend users (r.emailField.getD .none) = .ok none := by
      rw [hemail]
      rfl
    rw [processView_of_ok hfound, processView_of_ok (m := {}) halone]
    exact processResponse_congr statusCode (capture_congr hunread _ _) (.inr (capture_unread hunread _))

theorem attributed_of_undisturbed
    (hundisturbed : ∀ before call after, calls = before ++ call :: after → Undisturbed backend before call) :
    Attributed backend calls := by
  intro before r statusCode after heq
  rcases hundisturbed before _ after heq with ⟨users, own, hlast, hid, hfound⟩ | ⟨hhandled, halone⟩
  · obtain ⟨first, rest, rfl, hhandled, hquiet⟩ := exists_lastView hlast
    rw [hhandled] at hfound ⊢
    rw [alone, ownView_of_last hquiet hid]
    refine processView_own statusCode (hundisturbed first (.view users own) (rest ++ .response r statusCode :: after) ?_) hfound
    rw [heq]
    simp
  · refine processResponse_congr statusCode (hhandled.trans halone.symm) (.inr ?_)
    rw [hhandled]
    exact ⟨rfl, rfl⟩

def tableBackend : Backend where
  iexact a b := a.toList.map Char.toUpper = b.toList.map Char.toUpper
  authenticate _ _ := none

def alice : User := ⟨1, "alice@example.com", "User"⟩

def browser : Device := ⟨"10.0.0.1", "Unknown", "Other", "Unknown", ""⟩

def loginRequest : Request where
  id := 1
  path := loginUrl
  method := "POST"
  emailField := some (.text "alice@example.com")
  urlName := some "token_obtain_pair"
  uid := none
  sessionUser := none
  device := some browser

-- No URL matches, so its view is never called.
def unmatchedRequest : Request where
  id := 2
  path := "/api/unknown/"
  method := "GET"
  emailField := some .none
  urlName := none
  uid := none
  sessionUser := none
  device := some browser

theorem attributed_of_undisturbed_login :
    Attributed tableBackend [.view [alice] loginRequest, .response loginRequest 200] := by
  refine attributed_of_undisturbed fun before call after heq => ?_
  rcases before with - | ⟨first, - | ⟨second, before⟩⟩
  · obtain ⟨rfl, -⟩ := List.cons.inj heq
    exact .inl (by decide)
  · obtain ⟨rfl, hrest⟩ := List.cons.inj heq
    obtain ⟨rfl, -⟩ := List.cons.inj hrest
    exact .inl ⟨_, _, rfl, rfl, some alice, by decide +kernel⟩
  · obtain ⟨-, hrest⟩ := List.cons.inj heq
    obtain ⟨-, hnil⟩ := List.cons.inj hrest
    cases before <;> cases hnil

theorem login_logged_for_another : ¬∀ backend calls, Attributed backend calls := by
  intro hclaim
  have hsame := hclaim tableBackend [.view [alice] loginRequest, .response unmatchedRequest 404]
    [.view [alice] loginRequest] unmatchedRequest 404 [] rfl
  have hrows : (processResponse (handled tableBackend [.view [alice] loginRequest]) unmatchedRequest 404).map
      (fun row => (row.user, row.actionType, row.actionStatus)) = [(some 1, "LOGIN", "FAILED")] := by
    decide +kernel
  rw [hsame] at hrows
  exact absurd hrows (by decide +kernel)

end UserActivities

end Beyvra
