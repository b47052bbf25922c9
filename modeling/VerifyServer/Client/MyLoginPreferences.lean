import VerifyServer.Reasoning.JavaString

/-!
# MyLoginPreferences — what is remembered of a login

The choices of the user are kept in fields; a login that went well saves them, each by a method that
compares what is stored with a field and writes when the two differ.  How the library folds the case
of a character is a parameter.
-/

open VerifyServer.Reasoning

namespace VerifyServer.Client

/-! ## 1. `MyPreferences` -/

structure SharedPreferences where
  strings : JavaString → Option JavaString
  booleans : JavaString → Option Bool

def SharedPreferences.readString (p : SharedPreferences) (key default_string : JavaString) :
    JavaString := (p.strings key).getD default_string

def SharedPreferences.writeString (p : SharedPreferences) (key write_string : JavaString) :
    SharedPreferences := { p with strings := Function.update p.strings key (some write_string) }

def SharedPreferences.readBoolean (p : SharedPreferences) (key : JavaString)
    (default_boolean : Bool) : Bool := (p.booleans key).getD default_boolean

def SharedPreferences.writeBoolean (p : SharedPreferences) (key : JavaString)
    (default_boolean : Bool) : SharedPreferences :=
  { p with booleans := Function.update p.booleans key (some default_boolean) }

section ReadWrite

variable (p : SharedPreferences) {key key' : JavaString}

theorem readString_writeString (t d : JavaString) :
    (p.writeString key t).readString key d = t := by
  show (Function.update p.strings key (some t) key).getD d = t
  rw [Function.update_self, Option.getD_some]

theorem readBoolean_writeBoolean (b d : Bool) : (p.writeBoolean key b).readBoolean key d = b := by
  show (Function.update p.booleans key (some b) key).getD d = b
  rw [Function.update_self, Option.getD_some]

theorem readString_writeString_of_ne (h : key' ≠ key) (t d : JavaString) :
    (p.writeString key t).readString key' d = p.readString key' d :=
  congrArg (Option.getD · d) (Function.update_of_ne h ..)

theorem readBoolean_writeBoolean_of_ne (h : key' ≠ key) (b d : Bool) :
    (p.writeBoolean key b).readBoolean key' d = p.readBoolean key' d :=
  congrArg (Option.getD · d) (Function.update_of_ne h ..)

end ReadWrite

/-! ## 2. `MyLoginPreferences` -/

def preferences_login_user_name_key : JavaString := lit "login_user_name"
def preferences_login_user_password_key : JavaString := lit "login_user_password"
def preferences_login_remember_password : JavaString := lit "login_remember_password"
def preferences_login_autologin : JavaString := lit "login_auto_login"

structure MyLoginPreferences where
  pre_share : SharedPreferences
  bRemPassword : Bool := false
  bLoginAuto : Bool := false
  user_name : JavaString := []
  user_password : JavaString := []

/-- The constructor, after `_loadPreferenceSetting()`. -/
def MyLoginPreferences.load (p : SharedPreferences) : MyLoginPreferences where
  pre_share := p
  user_name := p.readString preferences_login_user_name_key []
  user_password := p.readString preferences_login_user_password_key []
  bRemPassword := p.readBoolean preferences_login_remember_password false
  bLoginAuto := p.readBoolean preferences_login_autologin false

namespace MyLoginPreferences

variable (fold : UInt16 → UInt16) (s : MyLoginPreferences)

def setRememberPassword (bIsRem : Bool) (user_name user_password : JavaString) :
    MyLoginPreferences :=
  { s with bRemPassword := bIsRem, user_name := user_name, user_password := user_password }

def setAutoLogin (bIsAuto : Bool) (user_name user_password : JavaString) : MyLoginPreferences :=
  { s with
    bLoginAuto := bIsAuto
    bRemPassword := if bIsAuto then true else s.bRemPassword
    user_name := user_name
    user_password := user_password }

def saveUserName : MyLoginPreferences :=
  let name := s.pre_share.readString preferences_login_user_name_key []
  -- `equalsIgnoreCase`
  if name.map fold ≠ s.user_name.map fold ∧ s.user_name ≠ [] then
    { s with
      pre_share := s.pre_share.writeString preferences_login_user_name_key s.user_name }
  else s

def saveRememberPassword : MyLoginPreferences :=
  let temp := s.pre_share.readBoolean preferences_login_remember_password false
  -- the stored flag is compared with the other choice
  if temp ≠ s.bLoginAuto then
    { s with
      pre_share :=
        (s.pre_share.writeBoolean preferences_login_remember_password s.bRemPassword).writeString
          preferences_login_user_password_key (if s.bRemPassword then s.user_password else []) }
  else s

def saveAutoLoginPreference : MyLoginPreferences :=
  let tempAutoLogin := s.pre_share.readBoolean preferences_login_autologin false
  if tempAutoLogin ≠ s.bLoginAuto then
    { s with pre_share := s.pre_share.writeBoolean preferences_login_autologin s.bLoginAuto }
  else s

def login_result (user_name user_password : JavaString) (isLogin : Bool) : MyLoginPreferences :=
  if isLogin then
    let s := { s with user_name := user_name, user_password := user_password }
    (s.saveUserName fold).saveAutoLoginPreference.saveRememberPassword
  else s

end MyLoginPreferences

inductive PreferenceCall where
  | setRememberPassword (bIsRem : Bool) (user_name user_password : JavaString)
  | setAutoLogin (bIsAuto : Bool) (user_name user_password : JavaString)
  | login_result (user_name user_password : JavaString) (isLogin : Bool)
  deriving DecidableEq, Repr

def MyLoginPreferences.call (fold : UInt16 → UInt16) (s : MyLoginPreferences) :
    PreferenceCall → MyLoginPreferences
  | .setRememberPassword bIsRem user_name user_password =>
    s.setRememberPassword bIsRem user_name user_password
  | .setAutoLogin bIsAuto user_name user_password =>
    s.setAutoLogin bIsAuto user_name user_password
  | .login_result user_name user_password isLogin =>
    s.login_result fold user_name user_password isLogin

/-! ## 3. The choices -/

/-- The remember choice after a call; to log in without being asked needs the password too. -/
def PreferenceCall.remember (before : Bool) : PreferenceCall → Bool
  | .setRememberPassword bIsRem _ _ => bIsRem
  | .setAutoLogin bIsAuto _ _ => bIsAuto || before
  | .login_result .. => before

def PreferenceCall.autoLogin (before : Bool) : PreferenceCall → Bool
  | .setAutoLogin bIsAuto _ _ => bIsAuto
  | _ => before

/-- The last choices of each kind, from those that were stored. -/
def lastRemember (p : SharedPreferences) (calls : List PreferenceCall) : Bool :=
  calls.foldl PreferenceCall.remember (p.readBoolean preferences_login_remember_password false)

def lastAutoLogin (p : SharedPreferences) (calls : List PreferenceCall) : Bool :=
  calls.foldl PreferenceCall.autoLogin (p.readBoolean preferences_login_autologin false)

/-- What the preferences hold of a login. -/
structure Stored where
  user_name : JavaString
  user_password : JavaString
  remember : Bool
  autoLogin : Bool
  deriving DecidableEq, Repr

def SharedPreferences.stored (p : SharedPreferences) : Stored where
  user_name := p.readString preferences_login_user_name_key []
  user_password := p.readString preferences_login_user_password_key []
  remember := p.readBoolean preferences_login_remember_password false
  autoLogin := p.readBoolean preferences_login_autologin false

/-- What they should hold of a login with these choices. -/
def Stored.login (user_name user_password : JavaString) (remember autoLogin : Bool) : Stored where
  user_name := user_name
  user_password := if remember then user_password else []
  remember := remember
  autoLogin := autoLogin

/-! ## 4. What is saved -/

section Writes

variable (p : SharedPreferences)

theorem name_ne_password :
    preferences_login_user_name_key ≠ preferences_login_user_password_key := by
  decide +kernel

theorem remember_ne_autologin :
    preferences_login_remember_password ≠ preferences_login_autologin := by
  decide +kernel

theorem stored_writeString_name (t : JavaString) :
    (p.writeString preferences_login_user_name_key t).stored =
      { p.stored with user_name := t } := by
  unfold SharedPreferences.stored
  rw [readString_writeString, readString_writeString_of_ne p name_ne_password.symm]
  rfl

theorem stored_writeString_password (t : JavaString) :
    (p.writeString preferences_login_user_password_key t).stored =
      { p.stored with user_password := t } := by
  unfold SharedPreferences.stored
  rw [readString_writeString, readString_writeString_of_ne p name_ne_password]
  rfl

theorem stored_writeBoolean_remember (b : Bool) :
    (p.writeBoolean preferences_login_remember_password b).stored =
      { p.stored with remember := b } := by
  unfold SharedPreferences.stored
  rw [readBoolean_writeBoolean, readBoolean_writeBoolean_of_ne p remember_ne_autologin.symm]
  rfl

theorem stored_writeBoolean_autologin (b : Bool) :
    (p.writeBoolean preferences_login_autologin b).stored = { p.stored with autoLogin := b } := by
  unfold SharedPreferences.stored
  rw [readBoolean_writeBoolean, readBoolean_writeBoolean_of_ne p remember_ne_autologin]
  rfl

end Writes

section Saves

variable (fold : UInt16 → UInt16) (s : MyLoginPreferences)

-- A save changes only what is stored.

theorem saveUserName_spec : ∃ q, s.saveUserName fold = { s with pre_share := q } ∧
    q.stored =
      if s.pre_share.stored.user_name.map fold ≠ s.user_name.map fold ∧ s.user_name ≠ [] then
        { s.pre_share.stored with user_name := s.user_name }
      else s.pre_share.stored := by
  by_cases hwrite : s.pre_share.stored.user_name.map fold ≠ s.user_name.map fold ∧
      s.user_name ≠ []
  · refine ⟨_, if_pos hwrite, ?_⟩
    rw [if_pos hwrite]
    exact stored_writeString_name ..
  · exact ⟨s.pre_share, if_neg hwrite, (if_neg hwrite).symm⟩

theorem saveRememberPassword_spec : ∃ q, s.saveRememberPassword = { s with pre_share := q } ∧
    q.stored =
      if s.pre_share.stored.remember ≠ s.bLoginAuto then
        { s.pre_share.stored with
          user_password := if s.bRemPassword then s.user_password else []
          remember := s.bRemPassword }
      else s.pre_share.stored := by
  by_cases hwrite : s.pre_share.stored.remember ≠ s.bLoginAuto
  · refine ⟨_, if_pos hwrite, ?_⟩
    rw [if_pos hwrite, stored_writeString_password, stored_writeBoolean_remember]
  · exact ⟨s.pre_share, if_neg hwrite, (if_neg hwrite).symm⟩

/-- The flag is what it must be, written or not. -/
theorem saveAutoLoginPreference_spec :
    ∃ q, s.saveAutoLoginPreference = { s with pre_share := q } ∧
      q.stored = { s.pre_share.stored with autoLogin := s.bLoginAuto } := by
  by_cases hwrite : s.pre_share.stored.autoLogin ≠ s.bLoginAuto
  · exact ⟨_, if_pos hwrite, stored_writeBoolean_autologin ..⟩
  · refine ⟨s.pre_share, if_neg hwrite, ?_⟩
    rw [← not_not.mp hwrite]

/-- What the saves of a login write. -/
theorem login_result_spec (user_name user_password : JavaString) :
    ∃ r, s.login_result fold user_name user_password true =
        { s with pre_share := r, user_name := user_name, user_password := user_password } ∧
      (user_name ≠ [] → r.stored =
        { user_name :=
            if s.pre_share.stored.user_name.map fold ≠ user_name.map fold then user_name
            else s.pre_share.stored.user_name
          user_password :=
            if s.pre_share.stored.remember ≠ s.bLoginAuto then
              if s.bRemPassword then user_password else []
            else s.pre_share.stored.user_password
          remember :=
            if s.pre_share.stored.remember ≠ s.bLoginAuto then s.bRemPassword
            else s.pre_share.stored.remember
          autoLogin := s.bLoginAuto }) := by
  have ⟨p, hname, hp⟩ := saveUserName_spec fold
    { s with user_name := user_name, user_password := user_password }
  have ⟨q, hauto, hq⟩ := saveAutoLoginPreference_spec
    { s with pre_share := p, user_name := user_name, user_password := user_password }
  have ⟨r, hremember, hr⟩ := saveRememberPassword_spec
    { s with pre_share := q, user_name := user_name, user_password := user_password }
  refine ⟨r, ?_, fun hne => ?_⟩
  · unfold MyLoginPreferences.login_result
    rw [if_pos rfl]
    dsimp only
    rw [hname, hauto, hremember]
  · rw [hr, hq, hp]
    by_cases hfold : s.pre_share.stored.user_name.map fold ≠ user_name.map fold
    · simp only [hfold, hne, ne_eq, not_false_eq_true, and_self, if_true]
      split <;> rfl
    · simp only [hfold, false_and, if_false]
      split <;> rfl

/-- The writes that a login needs are made, or what is stored is right without them. -/
def MyLoginPreferences.writesDue (user_name user_password : JavaString) : Prop :=
  (s.pre_share.stored.user_name.map fold ≠ user_name.map fold ∨
    s.pre_share.stored.user_name = user_name) ∧
  (s.pre_share.stored.remember ≠ s.bLoginAuto ∨
    (s.pre_share.stored.remember = s.bRemPassword ∧
      s.pre_share.stored.user_password = if s.bRemPassword then user_password else []))

theorem login_result_iff {user_name : JavaString} (user_password : JavaString)
    (h : user_name ≠ []) :
    (s.login_result fold user_name user_password true).pre_share.stored =
        .login user_name user_password s.bRemPassword s.bLoginAuto ↔
      s.writesDue fold user_name user_password := by
  have ⟨r, hlogin, hr⟩ := login_result_spec fold s user_name user_password
  rw [hlogin]
  show r.stored = _ ↔ _
  rw [hr h, Stored.login, Stored.mk.injEq]
  unfold MyLoginPreferences.writesDue
  rw [ite_eq_left_iff, ite_eq_left_iff, ite_eq_left_iff, or_iff_not_imp_left, or_iff_not_imp_left,
    imp_and, eq_self_iff_true, and_true]
  exact and_congr_right fun _ => and_comm

end Saves

/-! ## 5. Runs -/

section Runs

variable (fold : UInt16 → UInt16)

def MyLoginPreferences.run (p : SharedPreferences) (calls : List PreferenceCall) :
    MyLoginPreferences := calls.foldl (MyLoginPreferences.call fold) (.load p)

theorem call_choices (s : MyLoginPreferences) (c : PreferenceCall) :
    (s.call fold c).bRemPassword = c.remember s.bRemPassword ∧
    (s.call fold c).bLoginAuto = c.autoLogin s.bLoginAuto := by
  cases c with
  | setRememberPassword bIsRem user_name user_password => exact ⟨rfl, rfl⟩
  | setAutoLogin bIsAuto user_name user_password => cases bIsAuto <;> exact ⟨rfl, rfl⟩
  | login_result user_name user_password isLogin =>
    cases isLogin with
    | false => exact ⟨rfl, rfl⟩
    | true =>
      have ⟨r, hlogin, _⟩ := login_result_spec fold s user_name user_password
      show (s.login_result fold user_name user_password true).bRemPassword = _ ∧
        (s.login_result fold user_name user_password true).bLoginAuto = _
      rw [hlogin]
      exact ⟨rfl, rfl⟩

theorem foldl_call_choices (calls : List PreferenceCall) (s : MyLoginPreferences) :
    (calls.foldl (MyLoginPreferences.call fold) s).bRemPassword =
      calls.foldl PreferenceCall.remember s.bRemPassword ∧
    (calls.foldl (MyLoginPreferences.call fold) s).bLoginAuto =
      calls.foldl PreferenceCall.autoLogin s.bLoginAuto := by
  induction calls generalizing s with
  | nil => exact ⟨rfl, rfl⟩
  | cons c calls ih =>
    have ⟨hremember, hauto⟩ := call_choices fold s c
    rw [List.foldl_cons, List.foldl_cons, List.foldl_cons, ← hremember, ← hauto]
    exact ih _

theorem run_choices (p : SharedPreferences) (calls : List PreferenceCall) :
    (MyLoginPreferences.run fold p calls).bRemPassword = lastRemember p calls ∧
    (MyLoginPreferences.run fold p calls).bLoginAuto = lastAutoLogin p calls :=
  foldl_call_choices fold calls (.load p)

/-- In every sequence of calls, what is stored after each login is the login and the last choices
exactly if the writes that were due before each were made. -/
theorem run_saved_iff (p : SharedPreferences) (calls : List PreferenceCall) :
    (∀ before user_name user_password after,
      calls = before ++ .login_result user_name user_password true :: after → user_name ≠ [] →
      (MyLoginPreferences.run fold p
          (before ++ [.login_result user_name user_password true])).pre_share.stored =
        .login user_name user_password (lastRemember p before) (lastAutoLogin p before)) ↔
    (∀ before user_name user_password after,
      calls = before ++ .login_result user_name user_password true :: after → user_name ≠ [] →
      (MyLoginPreferences.run fold p before).writesDue fold user_name user_password) := by
  refine forall₄_congr fun before user_name user_password after => ?_
  refine imp_congr_right fun _ => imp_congr_right fun hne => ?_
  have ⟨hremember, hauto⟩ := run_choices fold p before
  have hrun : MyLoginPreferences.run fold p
      (before ++ [.login_result user_name user_password true]) =
        (MyLoginPreferences.run fold p before).login_result fold user_name user_password true :=
    List.foldl_append ..
  rw [hrun, ← hremember, ← hauto]
  exact login_result_iff fold _ user_password hne

end Runs

/-- Both choices are stored, with a password. -/
def remembered : SharedPreferences :=
  let p : SharedPreferences := ⟨fun _ => none, fun _ => none⟩
  let p := p.writeString preferences_login_user_name_key (lit "user")
  let p := p.writeString preferences_login_user_password_key (lit "secret")
  let p := p.writeBoolean preferences_login_remember_password true
  p.writeBoolean preferences_login_autologin true

/-- The user asks not to remember the password and logs in; it stays stored. -/
theorem secret_kept :
    let calls : List PreferenceCall := [.setRememberPassword false (lit "user") (lit "secret")]
    let s := MyLoginPreferences.run foldCase remembered
      (calls ++ [.login_result (lit "user") (lit "secret") true])
    lastRemember remembered calls = false ∧
    s.pre_share.stored.user_password = lit "secret" ∧
    s.pre_share.stored ≠ .login (lit "user") (lit "secret") (lastRemember remembered calls)
      (lastAutoLogin remembered calls) := by
  decide +kernel

end VerifyServer.Client
