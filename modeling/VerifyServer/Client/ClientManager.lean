import VerifyServer.Client.Md5Unit
import VerifyServer.Client.NetSocketData
import VerifyServer.Reasoning.Run

/-!
# ClientManager — logins and the responses to them

`verify_login` leaves the server and the credentials in fields of the manager and sends a request;
the listener that sees a response makes an `OnlineClientUser` of what the fields hold by then.
Responses carry no sign of the request they answer.
-/

open VerifyServer.Reasoning

namespace VerifyServer.Client.Manager

/-! ## 1. State -/

structure ClientUserInfo where
  user_name : Option JavaString
  user_password : Option JavaString
  deriving DecidableEq, Repr

structure ServerNetInfo where
  name : Option JavaString
  ip : Option JavaString
  port : Int
  net_kind : Int
  deriving DecidableEq, Repr

/-- `OnlineClientUser`, as its constructor sets it up. -/
structure OnlineClientUser where
  addr_ip : Option JavaString
  port : Int
  net_kind : Int
  user_info : ClientUserInfo
  deriving DecidableEq, Repr

/-- A login request: the arguments of its call, the message sent, and the user given last by then. -/
structure Request where
  user_info : Option ClientUserInfo
  info : ServerNetInfo
  data : JsonObject
  lastUser : Option ClientUserInfo

structure ClientManager where
  server_info : Option ServerNetInfo := none
  user_name : Option JavaString := none
  user_password : Option JavaString := none
  -- no result for the `OfflineClientUser` of the constructor
  cur_login_user : Option OnlineClientUser := none
  -- the requests sent and the user given last, which no code keeps
  requests : List Request := []
  lastUser : Option ClientUserInfo := none

/-! ## 2. Steps -/

/-- `VerifyLoginNetSocketData.prepare_data`, the JSON object. -/
def verifyLoginMessage (user_name user_password : Option JavaString) : JsonObject :=
  let cvalue := JsonObject.put [] (lit "user_name") (user_name.map .string)
  message (getRequestType .verifyLogin)
    (JsonObject.put cvalue (lit "user_password") (user_password.map .string))

/-- `verify_login(user_info, info)`. -/
def verifyLogin (s : ClientManager) (user_info : Option ClientUserInfo)
    (info : Option ServerNetInfo) : ClientManager :=
  let s :=
    match user_info with
    | none => s
    | some u =>
      let s := { s with user_name := u.user_name }
      -- the second assignment goes to the same field
      let s := { s with user_name := u.user_password }
      { s with lastUser := some u }
  match info with
  | none => s
  | some server =>
    { s with
      server_info := some server
      requests := s.requests ++ [⟨user_info, server,
        verifyLoginMessage s.user_name (some (encodeToMd5String s.user_password)), s.lastUser⟩] }

/-- `ClientManagerSocketReceiveListening.receive_data` of a login response. -/
def receiveLoginResponse (s : ClientManager) (nresult : Int) : ClientManager :=
  if 0 ≤ nresult then
    match s.server_info with
    | some server =>
      let user_info : ClientUserInfo := ⟨s.user_name, s.user_password⟩
      { s with cur_login_user := some ⟨server.ip, server.port, server.net_kind, user_info⟩ }
    | none => s
  else
    s

inductive LoginEvent where
  | verify_login (user_info : Option ClientUserInfo) (info : Option ServerNetInfo)
  -- a response to the request number `i`
  | verify_login_reponse (i : Nat) (nresult : Int)
  deriving DecidableEq, Repr

def stepManager (s : ClientManager) : LoginEvent → Option ClientManager
  | .verify_login user_info info => some (verifyLogin s user_info info)
  | .verify_login_reponse i nresult =>
    if i < s.requests.length then some (receiveLoginResponse s nresult) else none

/-! ## 3. What a login must do -/

/-- The credentials of a request: those given in its call, and where the call gave none, those its
message carried. -/
def Request.Credentials (request : Request) (u : ClientUserInfo) : Prop :=
  match request.user_info with
  | some given => u = given
  | none =>
    request.data = verifyLoginMessage u.user_name (some (encodeToMd5String u.user_password))

/-- The object has the server and the credentials of the request. -/
def OnlineClientUser.IsFor (user : OnlineClientUser) (request : Request) : Prop :=
  user.addr_ip = request.info.ip ∧ user.port = request.info.port ∧
    user.net_kind = request.info.net_kind ∧ request.Credentials user.user_info

/-- A request carries the name given and the digest of the password given; a response that reports
success leaves an object for the request it answers. -/
def LoginRight (s : ClientManager) (a : LoginEvent) : Prop :=
  ∀ t, stepManager s a = some t →
    match a with
    | .verify_login (some u) (some server) =>
      t.requests = s.requests ++ [⟨some u, server,
        verifyLoginMessage u.user_name (some (encodeToMd5String u.user_password)), some u⟩]
    | .verify_login _ _ => True
    | .verify_login_reponse i nresult =>
      0 ≤ nresult → ∀ request, s.requests[i]? = some request →
        ∃ user, t.cur_login_user = some user ∧ user.IsFor request

def SameServer (a b : ServerNetInfo) : Prop :=
  a.ip = b.ip ∧ a.port = b.port ∧ a.net_kind = b.net_kind

/-- What `user_name` holds: the password of the user given last. -/
def nameHeld (lastUser : Option ClientUserInfo) : Option JavaString :=
  lastUser.bind (·.user_password)

/-- The user given had no password, and for a name the password given last.  Where none was given,
the password given last is still the same. -/
def Request.Fits (request : Request) (lastUser : Option ClientUserInfo) : Prop :=
  match request.user_info with
  | some given => given.user_password = none ∧ given.user_name = nameHeld lastUser
  | none => nameHeld request.lastUser = nameHeld lastUser

/-- The name given is the password given, and there is none; the request answered went where the
last one went, and has the credentials that are held by now. -/
def LoginFits (s : ClientManager) : LoginEvent → Prop
  | .verify_login (some u) (some _) =>
    u.user_name = u.user_password ∧ (u.user_password = none ∨ u.user_password = some [])
  | .verify_login _ _ => True
  | .verify_login_reponse i nresult =>
    0 ≤ nresult → ∀ request last, s.requests[i]? = some request → s.requests.getLast? = some last →
      SameServer last.info request.info ∧ request.Fits s.lastUser

/-- No call ever assigns `user_password`, and `user_name` is a password. -/
structure ManagerInv (s : ClientManager) : Prop where
  user_name : s.user_name = nameHeld s.lastUser
  user_password : s.user_password = none
  server_info : s.server_info = s.requests.getLast?.map (·.info)
  carried : ∀ request ∈ s.requests, request.data =
    verifyLoginMessage (nameHeld request.lastUser) (some (encodeToMd5String none))

theorem managerInv_fresh : ManagerInv {} :=
  ⟨rfl, rfl, rfl, fun _ h => absurd h List.not_mem_nil⟩

/-- What the manager holds is what the next request carries. -/
theorem carried_append {s : ClientManager} (hs : ManagerInv s) {request : Request}
    (h : request.data = verifyLoginMessage (nameHeld request.lastUser)
      (some (encodeToMd5String none))) :
    ∀ x ∈ s.requests ++ [request], x.data =
      verifyLoginMessage (nameHeld x.lastUser) (some (encodeToMd5String none)) := by
  intro x hx
  rcases List.mem_append.mp hx with hx | hx
  · exact hs.carried x hx
  · rw [List.mem_singleton.mp hx]
    exact h

theorem verifyLogin_inv {s : ClientManager} (hs : ManagerInv s) (user_info : Option ClientUserInfo)
    (info : Option ServerNetInfo) : ManagerInv (verifyLogin s user_info info) := by
  cases user_info with
  | none =>
    cases info with
    | none => exact hs
    | some server =>
      refine ⟨hs.user_name, hs.user_password, by simp [verifyLogin], carried_append hs ?_⟩
      show verifyLoginMessage s.user_name (some (encodeToMd5String s.user_password)) = _
      rw [hs.user_name, hs.user_password]
  | some u =>
    cases info with
    | none => exact ⟨rfl, hs.user_password, hs.server_info, hs.carried⟩
    | some server =>
      refine ⟨rfl, hs.user_password, by simp [verifyLogin], carried_append hs ?_⟩
      show verifyLoginMessage u.user_password (some (encodeToMd5String s.user_password)) = _
      rw [hs.user_password]
      rfl

theorem stepManager_inv (s : ClientManager) (a : LoginEvent) (t : ClientManager)
    (hs : ManagerInv s) (h : stepManager s a = some t) : ManagerInv t := by
  cases a with
  | verify_login user_info info =>
    cases h
    exact verifyLogin_inv hs user_info info
  | verify_login_reponse i nresult =>
    rw [stepManager] at h
    split at h
    · cases h
      unfold receiveLoginResponse
      split
      · split
        · exact ⟨hs.user_name, hs.user_password, hs.server_info, hs.carried⟩
        · exact hs
      · exact hs
    · cases h

/-! ## 4. When it does -/

/-- The object under `cvalue` of a message. -/
def cvalue (m : JsonObject) : Option JsonObject :=
  match m.get (lit "content") with
  | some (.object content) =>
    match JsonObject.get content (lit "cvalue") with
    | some (.object o) => some o
    | _ => none
  | _ => none

def stringOf : Option Json → Option JavaString
  | some (.string s) => some s
  | _ => none

theorem verifyLoginMessage_fields (n p : Option JavaString) :
    ∃ o, cvalue (verifyLoginMessage n p) = some o ∧ stringOf (o.get (lit "user_name")) = n ∧
      stringOf (o.get (lit "user_password")) = p := by
  cases n <;> cases p <;> exact ⟨_, rfl, rfl, rfl⟩

theorem verifyLoginMessage_inj {n p n' p' : Option JavaString} :
    verifyLoginMessage n p = verifyLoginMessage n' p' ↔ n = n' ∧ p = p' := by
  constructor
  · intro h
    obtain ⟨o, ho, hn, hp⟩ := verifyLoginMessage_fields n p
    obtain ⟨o', ho', hn', hp'⟩ := verifyLoginMessage_fields n' p'
    have hoo : o = o' := Option.some.inj (ho.symm.trans ((congrArg cvalue h).trans ho'))
    rw [← hn, ← hn', ← hp, ← hp', hoo]
    exact ⟨rfl, rfl⟩
  · rintro ⟨rfl, rfl⟩
    rfl

theorem verify_login_right_iff {s : ClientManager} (hs : ManagerInv s) (u : ClientUserInfo)
    (server : ServerNetInfo) :
    LoginRight s (.verify_login (some u) (some server)) ↔
      LoginFits s (.verify_login (some u) (some server)) := by
  have hsent : (verifyLogin s (some u) (some server)).requests = s.requests ++ [⟨some u, server,
      verifyLoginMessage u.user_password (some (encodeToMd5String none)), some u⟩] := by
    rw [← hs.user_password]
    rfl
  have hmessage : LoginRight s (.verify_login (some u) (some server)) ↔
      verifyLoginMessage u.user_password (some (encodeToMd5String none)) =
        verifyLoginMessage u.user_name (some (encodeToMd5String u.user_password)) := by
    constructor
    · intro h
      have hreq := hsent.symm.trans (h _ rfl)
      exact (Request.mk.inj (List.cons.inj (List.append_cancel_left hreq)).1).2.2.1
    · intro h t ht
      cases ht
      show (verifyLogin s (some u) (some server)).requests = _
      rw [hsent, h]
  rw [hmessage, verifyLoginMessage_inj, Option.some_inj, eq_comm,
    @eq_comm _ (encodeToMd5String none), encodeToMd5String_eq_none]
  exact Iff.rfl

/-- A response that reports success leaves an object for the server of the last request, with the
password given last for a name and no password. -/
theorem receiveLoginResponse_installs {s : ClientManager} (hs : ManagerInv s) {nresult : Int}
    (hn : 0 ≤ nresult) {last : Request} (hlast : s.requests.getLast? = some last) :
    (receiveLoginResponse s nresult).cur_login_user =
      some ⟨last.info.ip, last.info.port, last.info.net_kind, ⟨nameHeld s.lastUser, none⟩⟩ := by
  have hserver : s.server_info = some last.info := by rw [hs.server_info, hlast]; rfl
  rw [receiveLoginResponse, if_pos hn, hserver, ← hs.user_name, ← hs.user_password]

/-- The credentials held are those of a request just when it fits. -/
theorem credentials_iff {s : ClientManager} (hs : ManagerInv s) {request : Request}
    (hrequest : request ∈ s.requests) :
    request.Credentials ⟨nameHeld s.lastUser, none⟩ ↔ request.Fits s.lastUser := by
  unfold Request.Credentials Request.Fits
  cases request.user_info with
  | some given =>
    show _ = given ↔ given.user_password = none ∧ given.user_name = nameHeld s.lastUser
    constructor
    · intro h
      rw [← h]
      exact ⟨rfl, rfl⟩
    · intro h
      rw [← h.1, ← h.2]
  | none =>
    show request.data = verifyLoginMessage (nameHeld s.lastUser) (some (encodeToMd5String none)) ↔
      nameHeld request.lastUser = nameHeld s.lastUser
    rw [hs.carried request hrequest, verifyLoginMessage_inj]
    exact and_iff_left rfl

theorem response_right_iff {s : ClientManager} (hs : ManagerInv s) (i : Nat) (nresult : Int) :
    LoginRight s (.verify_login_reponse i nresult) ↔
      LoginFits s (.verify_login_reponse i nresult) := by
  constructor
  · intro h hn request last hi hlast
    have hlt : i < s.requests.length := (List.getElem?_eq_some_iff.mp hi).1
    obtain ⟨user, huser, hip, hport, hkind, hinfo⟩ :=
      h (receiveLoginResponse s nresult) (if_pos hlt) hn request hi
    rw [receiveLoginResponse_installs hs hn hlast] at huser
    cases huser
    exact ⟨⟨hip, hport, hkind⟩, (credentials_iff hs (List.mem_of_getElem? hi)).mp hinfo⟩
  · intro h t ht hn request hi
    have hlt : i < s.requests.length := (List.getElem?_eq_some_iff.mp hi).1
    rw [stepManager, if_pos hlt] at ht
    cases ht
    obtain ⟨last, hlast⟩ : ∃ last, s.requests.getLast? = some last :=
      ⟨_, List.getLast?_eq_some_getLast (List.ne_nil_of_length_pos (Nat.zero_lt_of_lt hlt))⟩
    obtain ⟨⟨hip, hport, hkind⟩, hfits⟩ := h hn request last hi hlast
    exact ⟨_, receiveLoginResponse_installs hs hn hlast, hip, hport, hkind,
      (credentials_iff hs (List.mem_of_getElem? hi)).mpr hfits⟩

theorem login_right_iff (s : ClientManager) (a : LoginEvent) (hs : ManagerInv s) :
    LoginRight s a ↔ LoginFits s a := by
  match a with
  | .verify_login (some u) (some server) => exact verify_login_right_iff hs u server
  | .verify_login none _ => exact ⟨fun _ => trivial, fun _ t _ => trivial⟩
  | .verify_login (some _) none => exact ⟨fun _ => trivial, fun _ t _ => trivial⟩
  | .verify_login_reponse i nresult => exact response_right_iff hs i nresult

/-- The requests and the logins of a run are all right exactly when every call and every response
fits. -/
theorem run_logins_right_iff {as : List LoginEvent} :
    RunMeets stepManager LoginRight {} as ↔ RunMeets stepManager LoginFits {} as :=
  runMeets_congr_of_invariant (fun s a t hs _ h => stepManager_inv s a t hs h) login_right_iff
    managerInv_fresh as

/-- One login: the request has the password for a name.  Two logins to two servers: the response to
the first installs the second. -/
theorem run_logins_wrong :
    ¬ RunMeets stepManager LoginRight {}
        [.verify_login (some ⟨some (lit "bob"), some (lit "secret")⟩)
          (some ⟨none, some (lit "10.0.0.1"), 3601, 1⟩)] ∧
      ¬ RunMeets stepManager LoginRight {}
        [.verify_login (some ⟨none, none⟩) (some ⟨none, some (lit "10.0.0.1"), 3601, 1⟩),
          .verify_login (some ⟨none, none⟩) (some ⟨none, some (lit "10.0.0.2"), 3601, 1⟩),
          .verify_login_reponse 0 1] := by
  constructor
  · rintro ⟨h, -⟩
    have hfits := (verify_login_right_iff managerInv_fresh _ _).mp h
    exact absurd hfits.1 (by decide)
  · rintro ⟨-, h⟩
    obtain ⟨-, h⟩ := h _ rfl
    obtain ⟨h, -⟩ := h _ rfl
    obtain ⟨user, huser, hip, -⟩ := h _ rfl (by decide) _ rfl
    cases huser
    exact absurd hip (by decide)

end VerifyServer.Client.Manager
