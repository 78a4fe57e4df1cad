import GoIndustrial.EtherNetIP.Message
import GoIndustrial.Lib.SafeCode
import GoIndustrial.Lib.Table

/-!
# The message router

`MessageRouter.Dispatch` of `protocol/ethernetip/cip/router.go` finds the object that a request is
for: by the class number in the first segment of the path, or, for a path that begins with a symbol,
the symbolic handler. Objects are arbitrary functions on the state of the device. An error of an
object becomes a response with a status; an error of the router itself, who finds no object in the
path, is returned as an error and not as a response.

## Main definitions

* `EtherNetIP.Object`, `EtherNetIP.Router`, `EtherNetIP.Router.dispatch`.
* `EtherNetIP.Router.Routable` : the router finds an object, or that there is none, in the path.

## Main results

* `EtherNetIP.Router.dispatch_spec` : the three outcomes of a request.
* `EtherNetIP.Router.isExact_of_dispatch` : the responses of the router count their status words.
* `EtherNetIP.Router.dispatch_of_not_routable` : what is not routable is returned as an error.
* `EtherNetIP.Router.Safe.dispatch` : the router does not panic when its objects do not.
-/

namespace GoIndustrial.EtherNetIP

open GoSlice

variable {σ : Type}

/-- `Object.HandleRequest`: service, path and data of a request, on the state of the device. -/
abbrev Object (σ : Type) :=
  (service : UInt8) → (path data : List UInt8) → σ → Except (Fault Err) (List UInt8) × σ

structure Router (σ : Type) where
  /-- The objects by class number. -/
  objects : UInt16 → Option (Object σ)
  symbolicHandler : Option (Object σ)

def newMessageRouter : Router σ := ⟨fun _ => none, none⟩

def Router.registerObject (router : Router σ) (classID : UInt16) (obj : Object σ) : Router σ :=
  { router with objects := Function.update router.objects classID (some obj) }

/-- Where the first segment of a path leads. -/
inductive Target
  /-- The object of a class, with the path behind the class segment. -/
  | object (classID : UInt16) (remainingPath : List UInt8)
  | symbol
  deriving DecidableEq, Repr

/-- The first segment of a path. -/
def target (path : List UInt8) : Except (Fault Err) Target :=
  if path.length = 0 then throwStatus statusPathSegmentError
  else do
    let segment ← index path 0
    if segment = 0x20 then
      if path.length < 2 then throwStatus statusPathSegmentError
      else
        let classID ← index path 1
        let remainingPath ← sliceFrom path 2
        return .object classID.toUInt16 remainingPath
    else if segment = 0x21 then
      if path.length < 4 then throwStatus statusPathSegmentError
      else
        let classID ← uint16LEAt path 2
        let remainingPath ← sliceFrom path 4
        return .object classID remainingPath
    else if segment = 0x91 then return .symbol
    else throwStatus statusPathSegmentError

/-- The path begins with a whole class segment. -/
def HasClass (path : List UInt8) : Prop :=
  path.head? = some 0x20 ∧ 2 ≤ path.length ∨ path.head? = some 0x21 ∧ 4 ≤ path.length

instance (path : List UInt8) : Decidable (HasClass path) := inferInstanceAs (Decidable (_ ∨ _))

/-- A response with a status and no data. -/
def statusResponse (service status : UInt8) (extStatus : List UInt16) : MessageRouterResponse where
  service := service ||| 0x80
  reserved := 0
  generalStatus := status
  extStatusSize := UInt8.ofNat extStatus.length
  extStatus := extStatus
  responseData := []

/-- The response to what an object returns. -/
def respond (service : UInt8) : Except (Fault Err) (List UInt8) →
    Except (Fault Err) MessageRouterResponse
  | .ok data => .ok { statusResponse service 0 [] with responseData := data }
  | .error (.error (.cip e)) => .ok (statusResponse service e.status e.extStatus)
  | .error (.error _) => .ok (statusResponse service statusServiceNotSupported [])
  | .error .panic => .error .panic

namespace Router

/-- Hand a request to an object. -/
def call (obj : Object σ) (req : MessageRouterRequest) (path : List UInt8) (s : σ) :
    Except (Fault Err) MessageRouterResponse × σ :=
  let (result, s) := obj req.service path req.requestData s
  (respond req.service result, s)

def dispatch (router : Router σ) (req : MessageRouterRequest) (s : σ) :
    Except (Fault Err) MessageRouterResponse × σ :=
  match target req.requestPath with
  | .error e => (.error e, s)
  | .ok .symbol =>
    match router.symbolicHandler with
    | none => (throwStatus statusPathSegmentError, s)
    | some handler => call handler req req.requestPath s
  | .ok (.object classID remainingPath) =>
    match router.objects classID with
    | none => (.ok (statusResponse req.service statusObjectDoesNotExist []), s)
    | some obj => call obj req remainingPath s

/-- The path begins with a whole class segment, or with a symbol and there is a handler for it. -/
def Routable (router : Router σ) (path : List UInt8) : Prop :=
  HasClass path ∨ path.head? = some 0x91 ∧ router.symbolicHandler.isSome

instance (router : Router σ) (path : List UInt8) : Decidable (router.Routable path) :=
  inferInstanceAs (Decidable (_ ∨ _))

end Router

/-! ### The first segment -/

/-- The three outcomes for a path. -/
inductive TargetSpec (path : List UInt8) : Except (Fault Err) Target → Prop
  | object (classID : UInt16) (remainingPath : List UInt8) (h : HasClass path) :
    TargetSpec path (.ok (.object classID remainingPath))
  | symbol (h : path.head? = some 0x91) : TargetSpec path (.ok .symbol)
  | none (hclass : ¬ HasClass path) (hsymbol : path.head? ≠ some 0x91) :
    TargetSpec path (throwStatus statusPathSegmentError)

theorem target_spec (path : List UInt8) : TargetSpec path (target path) := by
  match path with
  | [] => exact .none (by simp [HasClass]) (by simp)
  | segment :: rest =>
    have hsegment : index (segment :: rest) 0 = (.ok segment : Except (Fault Err) UInt8) := rfl
    rw [target, if_neg (by simp), hsegment]
    change TargetSpec _ (if segment = 0x20 then _ else _)
    split_ifs with h20 hlen h21 hlen h91
    · refine .none ?_ (by simp [h20])
      rintro (⟨-, h⟩ | ⟨h, -⟩)
      · exact absurd h (Nat.not_le.mpr hlen)
      · simp [h20] at h
    · rw [index_of_lt (Nat.not_lt.mp hlen), sliceFrom, if_pos (Nat.not_lt.mp hlen)]
      exact .object _ _ (.inl ⟨congrArg some h20, Nat.not_lt.mp hlen⟩)
    · refine .none ?_ (by simp [h21])
      rintro (⟨h, -⟩ | ⟨-, h⟩)
      · simp [h21] at h
      · exact absurd h (Nat.not_le.mpr hlen)
    · rw [uint16LEAt, if_pos (Nat.not_lt.mp hlen), sliceFrom, if_pos (Nat.not_lt.mp hlen)]
      exact .object _ _ (.inr ⟨congrArg some h21, Nat.not_lt.mp hlen⟩)
    · exact .symbol (congrArg some h91)
    · exact .none (by simp [HasClass, h20, h21]) (by simp [h91])

/-! ### Responses -/

theorem isExact_statusResponse {service status : UInt8} {extStatus : List UInt16}
    (h : extStatus.length ≤ 255) : (statusResponse service status extStatus).IsExact := by
  simp only [MessageRouterResponse.IsExact, statusResponse, UInt8.toNat_ofNat']
  omega

/-- A response has a status or data. -/
inductive RespondSpec (service : UInt8) : MessageRouterResponse → Prop
  | status (status : UInt8) (extStatus : List UInt16) :
    RespondSpec service (statusResponse service status extStatus)
  | data (data : List UInt8) :
    RespondSpec service { statusResponse service 0 [] with responseData := data }

theorem respond_spec {service : UInt8} {result : Except (Fault Err) (List UInt8)}
    {resp : MessageRouterResponse} (h : respond service result = .ok resp) :
    RespondSpec service resp := by
  match result, h with
  | .ok data, h =>
    cases h
    exact .data data
  | .error (.error (.cip e)), h =>
    cases h
    exact .status e.status e.extStatus
  | .error (.error (.read _)), h | .error (.error (.other _)), h =>
    cases h
    exact .status statusServiceNotSupported []

namespace Router

/-- An object of the router. -/
def Registered (router : Router σ) (obj : Object σ) : Prop :=
  (∃ classID, router.objects classID = some obj) ∨ router.symbolicHandler = some obj

/-- What becomes of a request. -/
inductive DispatchSpec (router : Router σ) (req : MessageRouterRequest) (s : σ) :
    Except (Fault Err) MessageRouterResponse × σ → Prop
  | unrouted (h : ¬ router.Routable req.requestPath) :
    DispatchSpec router req s (throwStatus statusPathSegmentError, s)
  | missing (h : router.Routable req.requestPath) :
    DispatchSpec router req s (.ok (statusResponse req.service statusObjectDoesNotExist []), s)
  | called (h : router.Routable req.requestPath) (obj : Object σ) (hobj : router.Registered obj)
    (path : List UInt8) : DispatchSpec router req s (call obj req path s)

theorem dispatch_spec (router : Router σ) (req : MessageRouterRequest) (s : σ) :
    DispatchSpec router req s (router.dispatch req s) := by
  have hspec := target_spec req.requestPath
  rw [dispatch]
  cases htarget : target req.requestPath with
  | error e =>
    rw [htarget] at hspec
    cases hspec with
    | none hclass hsymbol => exact .unrouted (by simp [Routable, hclass, hsymbol])
  | ok t =>
    rw [htarget] at hspec
    cases hspec with
    | object classID remainingPath h =>
      have h' : router.Routable req.requestPath := .inl h
      dsimp only
      cases hobj : router.objects classID with
      | none => exact .missing h'
      | some obj => exact .called h' obj (.inl ⟨classID, hobj⟩) _
    | symbol h =>
      dsimp only
      cases hhandler : router.symbolicHandler with
      | none =>
        refine .unrouted fun hroutable => ?_
        rw [Routable, hhandler, HasClass, h] at hroutable
        simp at hroutable
      | some handler =>
        exact .called (.inr ⟨h, by rw [hhandler]; rfl⟩) handler (.inr hhandler) _

variable {router : Router σ} {req : MessageRouterRequest} {s s' : σ} {resp : MessageRouterResponse}

theorem respondSpec_of_dispatch (h : router.dispatch req s = (.ok resp, s')) :
    RespondSpec req.service resp := by
  have hspec := router.dispatch_spec req s
  rw [h] at hspec
  generalize hr : (Except.ok resp, s') = r at hspec
  cases hspec with
  | unrouted => cases hr
  | missing =>
    obtain ⟨h, -⟩ := Prod.mk.inj hr
    cases h
    exact .status _ _
  | called _ obj _ path => exact respond_spec (Prod.mk.inj hr).1.symm

/-- A response counts its extended status words, if there are not too many of them. -/
theorem isExact_of_dispatch (h : router.dispatch req s = (.ok resp, s'))
    (hext : resp.extStatus.length ≤ 255) : resp.IsExact := by
  cases respondSpec_of_dispatch h with
  | status => exact isExact_statusResponse hext
  | data => rfl

/-- A response with an error has no data. -/
theorem responseData_of_error (h : router.dispatch req s = (.ok resp, s')) {e : CipError}
    (he : resp.error = some e) : resp.responseData = [] := by
  cases respondSpec_of_dispatch h with
  | status => rfl
  | data => cases he

/-- **What is not routable** is returned as an error. -/
theorem dispatch_of_not_routable (h : ¬ router.Routable req.requestPath) :
    router.dispatch req s = (throwStatus statusPathSegmentError, s) := by
  have hspec := router.dispatch_spec req s
  generalize router.dispatch req s = r at hspec
  cases hspec with
  | unrouted => rfl
  | missing h' | called h' => exact absurd h' h

/-- What is routable is answered with a response, unless an object panics. -/
theorem dispatch_ne_error (h : router.Routable req.requestPath) (e : Err) :
    (router.dispatch req s).1 ≠ .error (.error e) := by
  have hspec := router.dispatch_spec req s
  generalize router.dispatch req s = r at hspec
  cases hspec with
  | unrouted h' => exact absurd h h'
  | missing => nofun
  | called _ obj _ path =>
    simp only [call]
    match (obj req.service path req.requestData s).1 with
    | .ok _ | .error (.error (.cip _)) | .error (.error (.read _)) | .error (.error (.other _))
    | .error .panic => nofun

/-- The objects of the router do not panic. -/
def Safe (router : Router σ) : Prop :=
  ∀ obj, router.Registered obj → ∀ service path data s, (obj service path data s).1 ≠ .error .panic

theorem Safe.dispatch (h : router.Safe) (req : MessageRouterRequest) (s : σ) :
    (router.dispatch req s).1 ≠ .error .panic := by
  have hspec := router.dispatch_spec req s
  generalize router.dispatch req s = r at hspec
  cases hspec with
  | unrouted | missing => nofun
  | called _ obj hobj path =>
    have hcall := h obj hobj req.service path req.requestData s
    simp only [call]
    match (obj req.service path req.requestData s).1, hcall with
    | .ok _, _ | .error (.error (.cip _)), _ | .error (.error (.read _)), _
    | .error (.error (.other _)), _ => nofun

theorem safe_newMessageRouter : (newMessageRouter : Router σ).Safe := by
  rintro obj (⟨_, h⟩ | h) <;> cases h

theorem Safe.registerObject (h : router.Safe) {obj : Object σ}
    (hobj : ∀ service path data s, (obj service path data s).1 ≠ .error .panic) (classID : UInt16) :
    (router.registerObject classID obj).Safe := by
  rintro other (⟨otherID, hother⟩ | hother)
  · rcases Table.update_some_eq_some.mp hother with ⟨-, rfl⟩ | ⟨-, hother⟩
    · exact hobj
    · exact h other (.inl ⟨otherID, hother⟩)
  · exact h other (.inr hother)

end Router

end GoIndustrial.EtherNetIP
