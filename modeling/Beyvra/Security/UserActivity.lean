import Mathlib.Data.List.Basic

namespace Beyvra

namespace UserActivities

-- An identifier as Python has it: None, False, or something with a text
inductive Value where
  | none
  | false
  | text (value : String)
  deriving DecidableEq

structure User where
  id : Nat
  email : String
  role : String
  deriving DecidableEq

structure Device where
  ipAddress : String
  geolocation : String
  deviceType : String
  deviceModel : String
  userAgent : String
  deriving DecidableEq

-- emailField is what data.get("email") gives, if it does not raise; device what log gathers, if that does not raise.
structure Request where
  id : Nat
  path : String
  method : String
  emailField : Option Value
  urlName : Option String
  uid : Option Nat
  sessionUser : Option Nat
  device : Option Device
  deriving DecidableEq

-- A check's answer when it is not None
inductive Checked where
  | known (user : User)
  | refused
  deriving DecidableEq

structure UpdateInfo where
  user : Option User
  info : String
  deriving DecidableEq

-- user is none for an AnonymousUser
structure AdminAction where
  user : Option User
  action : String
  deriving DecidableEq

structure Captured where
  loginUser : Option Checked := none
  logoutUser : Option Checked := none
  signupUser : Option Checked := none
  deleteUser : Option Checked := none
  updateUser : Option UpdateInfo := none
  forgotPasswordUser : Option Checked := none
  passwordResetUser : Option Checked := none
  passwordChangeUser : Option Checked := none
  adminUser : Option Checked := none
  otherAdminActions : Option AdminAction := none
  deriving DecidableEq

structure Middleware extends Captured where
  userEmail : Value := .none
  deriving DecidableEq

structure ActivityRow where
  user : Option Nat
  anonymousUser : String
  actionType : String
  actionStatus : String
  description : String
  device : Device
  deriving DecidableEq

-- The comparison of the database and the token authentication of get_logged_user
structure Backend where
  iexact : String → String → Bool
  authenticate : List User → Request → Option User

def loginUrl : String := "/api/user/token/"
def tokenLogoutUrl : String := "/api/user/token/logout/"
def createUserUrl : String := "/api/user/create/"
def deleteUserUrl : String := "/api/user/delete/"
def disableWalkthroughUrl : String := "/api/user/disable_walkthrough/"
def enableMfaUrl : String := "/api/user/generate_mfa_code/"
def setTwoFactorUrl : String := "/api/user/2fa-method/"
def forgotPasswordUrl : String := "/api/user/password_reset/"
def passwordChangeUrl : String := "/api/user/password_change/"
def adminSetGlobal2faUrl : String := "/api/admin/users/global-2fa-method/"

def presetActions : List String :=
  [loginUrl, tokenLogoutUrl, createUserUrl, deleteUserUrl, disableWalkthroughUrl, enableMfaUrl, setTwoFactorUrl,
    forgotPasswordUrl, passwordChangeUrl, adminSetGlobal2faUrl]

def hasNul (text : String) : Bool := text.toList.contains '\x00'

section Checks

variable (backend : Backend) (users : List User) (r : Request)

def Checked.of : Option User → Checked
  | some user => .known user
  | none => .refused

def checkAt (url method : String) (user : Option User) : Option Checked :=
  if r.path = url ∧ r.method = method then some (.of user) else none

def checkLoginActivity (user : Option User) : Option Checked := checkAt r loginUrl "POST" user

def checkLogoutActivity : Option Checked := checkAt r tokenLogoutUrl "POST" (backend.authenticate users r)

def checkSignupActivity (user : Option User) : Option Checked := checkAt r createUserUrl "POST" user

def checkDeleteActivity : Option Checked := checkAt r deleteUserUrl "DELETE" (backend.authenticate users r)

def checkUserUpdateActivity : Option UpdateInfo :=
  if r.path = enableMfaUrl ∧ r.method = "GET" then some ⟨backend.authenticate users r, "Enable MFA"⟩
  else if r.path = setTwoFactorUrl ∧ r.method = "PATCH" then some ⟨backend.authenticate users r, "Set 2FA"⟩
  else none

def checkUserForgotPasswordActivity : Option Checked :=
  checkAt r forgotPasswordUrl "POST" (backend.authenticate users r)

def checkUserPasswordReset : Option Checked :=
  if r.urlName = some "password_reset_confirm" ∧ r.method = "POST" then
    some (.of (r.uid.bind fun uid => users.find? (·.id = uid)))
  else none

def checkUserPasswordChange : Option Checked := checkAt r passwordChangeUrl "POST" (backend.authenticate users r)

def checkAdminGlobalSet2faActivity : Option Checked :=
  checkAt r adminSetGlobal2faUrl "PATCH" (backend.authenticate users r)

-- request.user is an AnonymousUser at worst, so it is never falsy; the role asked for is that of any user.
def checkAdminActivities : Option AdminAction :=
  let isAdmin := users.any fun user => backend.iexact user.role "Admin" || backend.iexact user.role "Super Admin"
  if isAdmin ∧ r.path ∉ presetActions then
    some ⟨r.sessionUser.bind fun uid => users.find? (·.id = uid),
      "OTHER_ADMIN_ACTION_" ++ (if r.urlName.getD "" = "" then r.path else r.urlName.getD "")⟩
  else none

def capture (user : Option User) : Captured where
  loginUser := checkLoginActivity r user
  logoutUser := checkLogoutActivity backend users r
  signupUser := checkSignupActivity r user
  deleteUser := checkDeleteActivity backend users r
  updateUser := checkUserUpdateActivity backend users r
  forgotPasswordUser := checkUserForgotPasswordActivity backend users r
  passwordResetUser := checkUserPasswordReset users r
  passwordChangeUser := checkUserPasswordChange backend users r
  adminUser := checkAdminGlobalSet2faActivity backend users r
  otherAdminActions := checkAdminActivities backend users r

end Checks

-- User.objects.filter(email__iexact=...).first(), the users in the order of their keys; the adapter refuses a NUL.
def findByEmail (backend : Backend) (users : List User) : Value → Except String (Option User)
  | .none => .ok none
  | .false => .ok (users.find? fun user => backend.iexact user.email "False")
  | .text value =>
    if hasNul value then .error "A string literal cannot contain NUL (0x00) characters."
    else .ok (users.find? fun user => backend.iexact user.email value)

def processView (backend : Backend) (m : Middleware) (users : List User) (r : Request) : Middleware :=
  let userEmail := r.emailField.getD m.userEmail
  match findByEmail backend users userEmail with
  | .ok user => { capture backend users r user with userEmail }
  | .error _ => { m with userEmail }

def acceptedStatusCodes : List Nat := [200, 201, 302, 301]

def storable (row : ActivityRow) : Bool :=
  row.actionType.length ≤ 100 && !hasNul row.actionType && !hasNul row.description

-- Whatever is raised in here is caught, and nothing is written.
def log (r : Request) (actionType desc errMsg : String) (user : Option User) (statusCode : Nat) : List ActivityRow :=
  match r.device with
  | none => []
  | some device =>
    let row : ActivityRow :=
      { user := user.map (·.id)
        anonymousUser := if user.isSome then "" else "Unknown User"
        actionType
        actionStatus := if statusCode ∈ acceptedStatusCodes then "SUCCESS" else "FAILED"
        description := if statusCode ∈ acceptedStatusCodes then desc else errMsg
        device }
    if storable row then [row] else []

def logNamed (r : Request) (user : Option User) (actionType desc identifier : String) (statusCode : Nat) :
    List ActivityRow :=
  log r actionType s!"{actionType} - {desc}  attempt success -> {identifier}"
    s!"{actionType} - {desc} attempt failed -> {identifier}" user statusCode

def logAction (r : Request) (user : Option User) (actionType : String) (identifier : Value) (statusCode : Nat)
    (desc : String := "") : List ActivityRow :=
  match identifier with
  | .text identifier => logNamed r user actionType desc identifier statusCode
  | _ => logNamed r none actionType desc "Unknown user" statusCode

def Checked.found : Checked → Option User
  | .known user => some user
  | .refused => none

def Checked.identifier : Checked → Value
  | .known user => .text user.email
  | .refused => .false

def UpdateInfo.identifier (info : UpdateInfo) : Value :=
  match info.user with
  | some user => .text user.email
  | none => .false

-- What logs a check of the kind most of them are: the user it gave, by the user's own address
def logChecked (r : Request) (statusCode : Nat) (actionType : String) (checked : Option Checked) : List ActivityRow :=
  match checked with
  | none => []
  | some checked => logAction r checked.found actionType checked.identifier statusCode

-- The last block reads the address of the user it was given, and an AnonymousUser has none: no row of its own.
def logOtherAdminActions (r : Request) (statusCode : Nat) : Option AdminAction → List ActivityRow
  | some ⟨some user, action⟩ => logAction r (some user) action (.text user.email) statusCode
  | _ => []

def processResponse (m : Middleware) (r : Request) (statusCode : Nat) : List ActivityRow :=
  logChecked r statusCode "LOGIN" m.loginUser ++
  logChecked r statusCode "LOGOUT" m.logoutUser ++
  (match m.signupUser with
    | none => []
    | some checked => logAction r checked.found "CREATE" m.userEmail statusCode) ++
  (match m.deleteUser with
    | none => []
    | some checked => logAction r none "DELETE" checked.identifier statusCode) ++
  (match m.updateUser with
    | none => []
    | some info => logAction r info.user "UPDATE" info.identifier statusCode info.info) ++
  (match m.forgotPasswordUser with
    | none => []
    | some checked => logAction r checked.found "FORGOT_PASSWORD" m.userEmail statusCode) ++
  logChecked r statusCode "PASSWORD_RESET" m.passwordResetUser ++
  logChecked r statusCode "CHANGE_PASSWORD" m.passwordChangeUser ++
  logChecked r statusCode "ADMIN_GLOBAL_SET_2FA" m.adminUser ++
  logOtherAdminActions r statusCode m.otherAdminActions

inductive Call where
  | view (users : List User) (r : Request)
  | response (r : Request) (statusCode : Nat)
  deriving DecidableEq

def Call.request : Call → Request
  | .view _ r => r
  | .response r _ => r

-- A response leaves the object as it is.
def step (backend : Backend) (m : Middleware) : Call → Middleware
  | .view users r => processView backend m users r
  | .response _ _ => m

def handled (backend : Backend) (calls : List Call) : Middleware := calls.foldl (step backend) {}

end UserActivities

end Beyvra
