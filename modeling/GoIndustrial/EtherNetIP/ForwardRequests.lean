import GoIndustrial.EtherNetIP.ConnTable

/-!
# Forward_Open and Forward_Close from their bytes

`HandleForwardOpen` and `HandleForwardClose` of `objects/connmgr` start from the service data of a
request. Both read a fixed part, one field of which announces the number of words of a path, and
then the path. The path is read with the reader's own `Read`: one that is cut short is filled up
with zeros, and when nothing is left the request is refused, even if no path was announced.

Requests of this kind are treated together. A `PathRequest` says how the fields of the fixed part
are written and read; what the manager makes of the bytes then depends only on their number and on
the announced size.

## Main definitions

* `EtherNetIP.PathRequest` : requests that end in a path.
* `EtherNetIP.PathRequest.Carries` : a byte string holds a request.
* `EtherNetIP.ConnectionManager.serveForwardOpen`,
  `EtherNetIP.ConnectionManager.serveForwardClose` : the handlers with their callbacks.

## Main results

* `EtherNetIP.PathRequest.handledExactly_iff` : the byte strings that are handled exactly.
* `EtherNetIP.forwardRequests_exact_iff` : for the two requests of the manager.
-/

namespace GoIndustrial.EtherNetIP

open LittleEndian ByteReader

/-! ### Requests that end in a path -/

/-- A request with a fixed part and a path, whose size in words is announced in the fixed part at
`sizeAt`. -/
structure PathRequest (ρ : Type) where
  /-- Read the fields up to the path, which is left empty. -/
  readFixed : Reader ρ
  fixedPart : ρ → List UInt8
  pathSize : ρ → UInt8
  path : ρ → List UInt8
  withPath : ρ → List UInt8 → ρ
  encode : ρ → List UInt8
  fixedSize : ℕ
  sizeAt : ℕ
  sizeAt_lt : sizeAt < fixedSize
  length_fixedPart : ∀ r, (fixedPart r).length = fixedSize
  getD_fixedPart : ∀ r, (fixedPart r).getD sizeAt 0 = pathSize r
  takes_readFixed : Takes fixedSize readFixed
  readFixed_eq_ok : ∀ {bs r rest},
    readFixed bs = .ok (r, rest) ↔ path r = [] ∧ bs = fixedPart r ++ rest
  path_withPath : ∀ r p, path (withPath r p) = p
  withPath_path : ∀ r p, withPath (withPath r p) (path r) = r
  fixedPart_withPath : ∀ r p, fixedPart (withPath r p) = fixedPart r
  pathSize_withPath : ∀ r p, pathSize (withPath r p) = pathSize r
  /-- The encoder counts the words of the path itself. -/
  encode_eq : ∀ r, (path r).length = (pathSize r).toNat * 2 → encode r = fixedPart r ++ path r

namespace PathRequest

variable {ρ κ σ : Type} (l : PathRequest ρ) {data : List UInt8} {r : ρ}

/-- The fixed part, and the path read with the reader's own `Read`. -/
def reader : Reader ρ := do
  let r ← l.readFixed
  let p ← read ((l.pathSize r).toNat * 2)
  return l.withPath r p

/-- The path is what `Read` makes of the bytes behind the fixed part. -/
theorem reader_eq_ok {bs rest : List UInt8} : l.reader bs = .ok (r, rest) ↔
    ∃ mid, bs = l.fixedPart r ++ mid ∧
      read ((l.pathSize r).toNat * 2) mid = .ok (l.path r, rest) := by
  constructor
  · intro h
    obtain ⟨a, mid, ha, h⟩ := bind_eq_ok.mp h
    obtain ⟨p, mid', hp, h⟩ := bind_eq_ok.mp h
    obtain ⟨rfl, rfl⟩ := pure_eq_ok.mp h
    obtain ⟨-, rfl⟩ := l.readFixed_eq_ok.mp ha
    exact ⟨mid, by rw [l.fixedPart_withPath], by rw [l.pathSize_withPath, l.path_withPath, hp]⟩
  · rintro ⟨mid, rfl, hread⟩
    have hfixed : l.readFixed (l.fixedPart r ++ mid) = .ok (l.withPath r [], mid) :=
      l.readFixed_eq_ok.mpr ⟨l.path_withPath r [], by rw [l.fixedPart_withPath]⟩
    rw [← l.pathSize_withPath r []] at hread
    exact bind_eq_ok.mpr ⟨_, _, hfixed, bind_eq_ok.mpr ⟨_, _, hread,
      pure_eq_ok.mpr ⟨l.withPath_path r [], rfl⟩⟩⟩

theorem reader_of_lt {bs : List UInt8} (h : l.fixedSize < bs.length) :
    ∃ r rest, l.reader bs = .ok (r, rest) := by
  obtain ⟨a, ha⟩ := l.takes_readFixed bs h.le
  have hne : bs.drop l.fixedSize ≠ [] := by
    rw [ne_eq, List.drop_eq_nil_iff]
    omega
  exact ⟨_, _, bind_eq_ok.mpr ⟨_, _, ha, bind_eq_ok.mpr ⟨_, _, if_neg hne, rfl⟩⟩⟩

/-- The byte string holds the fixed part of the request and all the path that it announces. -/
def Carries (data : List UInt8) (r : ρ) : Prop :=
  (l.path r).length = (l.pathSize r).toNat * 2 ∧ ∃ tail, data = l.encode r ++ tail

/-- The number of words of the path, as announced. -/
def announced (data : List UInt8) : ℕ := (data.getD l.sizeAt 0).toNat

/-- The fixed part is not followed by nothing when no path is announced, nor by a part of the path
that is announced. -/
structure PathRead (data : List UInt8) : Prop where
  not_empty : ¬ (data.length = l.fixedSize ∧ l.announced data = 0)
  not_cut : ¬ (l.fixedSize < data.length ∧ data.length < l.fixedSize + l.announced data * 2)

theorem announced_fixedPart (r : ρ) (rest : List UInt8) :
    l.announced (l.fixedPart r ++ rest) = (l.pathSize r).toNat := by
  have hlt : l.sizeAt < (l.fixedPart r).length := (l.length_fixedPart r).symm ▸ l.sizeAt_lt
  rw [announced, List.getD_append _ _ _ _ hlt, l.getD_fixedPart]

variable {l}

theorem Carries.announced_eq (h : l.Carries data r) :
    l.announced data = (l.pathSize r).toNat := by
  obtain ⟨hpath, tail, rfl⟩ := h
  rw [l.encode_eq r hpath, List.append_assoc, l.announced_fixedPart]

theorem Carries.le_length (h : l.Carries data r) :
    l.fixedSize + l.announced data * 2 ≤ data.length := by
  rw [h.announced_eq]
  obtain ⟨hpath, tail, rfl⟩ := h
  rw [l.encode_eq r hpath, List.length_append, List.length_append, l.length_fixedPart, hpath]
  omega

/-- A request is read, if anything stands behind its fixed part. -/
theorem Carries.decode_eq (h : l.Carries data r) (hlen : data.length ≠ l.fixedSize) :
    decode l.reader data = .ok r := by
  obtain ⟨hpath, tail, rfl⟩ := h
  rw [l.encode_eq r hpath] at hlen ⊢
  have hne : l.path r ++ tail ≠ [] := by
    intro hnil
    rw [List.append_assoc, hnil, List.append_nil, l.length_fixedPart] at hlen
    exact hlen rfl
  refine decode_eq_ok.mpr ⟨tail, l.reader_eq_ok.mpr ⟨_, List.append_assoc .., ?_⟩⟩
  rw [← hpath]
  exact read_append _ _ hne

theorem decode_eq_ok_iff : (∃ r, decode l.reader data = .ok r) ↔ l.fixedSize < data.length := by
  constructor
  · rintro ⟨r, h⟩
    obtain ⟨rest, h⟩ := decode_eq_ok.mp h
    obtain ⟨mid, rfl, hread⟩ := l.reader_eq_ok.mp h
    have hmid : mid ≠ [] := by
      rintro rfl
      exact absurd hread nofun
    rw [List.length_append, l.length_fixedPart]
    exact Nat.lt_add_of_pos_right (List.length_pos_of_ne_nil hmid)
  · intro h
    obtain ⟨r, rest, h⟩ := l.reader_of_lt h
    exact ⟨r, decode_eq_ok.mpr ⟨rest, h⟩⟩

/-- A byte string that is long enough holds a request. -/
theorem exists_carries (h : l.fixedSize + l.announced data * 2 ≤ data.length) :
    ∃ r, l.Carries data r := by
  -- with one more byte behind it the request is read, and that byte is not part of it
  have hlt : l.fixedSize < (data ++ [0]).length := by
    rw [List.length_append, List.length_singleton]
    omega
  obtain ⟨r, rest, hread⟩ := l.reader_of_lt hlt
  obtain ⟨mid, hdata, hpath⟩ := l.reader_eq_ok.mp hread
  have hlen := congrArg List.length hdata
  rw [List.length_append, List.length_append, List.length_singleton, l.length_fixedPart] at hlen
  have hsize : l.announced data = (l.pathSize r).toNat := by
    have hat : l.sizeAt < data.length := Nat.lt_of_lt_of_le l.sizeAt_lt (by omega)
    rw [← l.announced_fixedPart r mid, ← hdata, announced, announced, List.getD_append _ _ _ _ hat]
  rw [hsize] at h
  obtain ⟨mid, rfl⟩ : ∃ mid', mid = mid' ++ [0] := by
    refine ⟨data.drop l.fixedSize, ?_⟩
    have hdrop := congrArg (List.drop l.fixedSize) hdata
    rw [List.drop_append_of_le_length (by omega), ← l.length_fixedPart r, List.drop_left] at hdrop
    rw [← hdrop, l.length_fixedPart]
  rw [← List.append_assoc] at hdata
  obtain rfl := List.append_cancel_right hdata
  rw [List.length_append, l.length_fixedPart] at h
  rw [read_of_le (by simp) (by rw [List.length_append]; omega),
    List.take_append_of_le_length (by omega)] at hpath
  have htake : mid.take ((l.pathSize r).toNat * 2) = l.path r :=
    congrArg Prod.fst (Except.ok.inj hpath)
  have hcount : (l.path r).length = (l.pathSize r).toNat * 2 := by
    rw [← htake, List.length_take_of_le (by omega)]
  refine ⟨r, hcount, mid.drop ((l.pathSize r).toNat * 2), ?_⟩
  rw [l.encode_eq r hcount, List.append_assoc, ← htake, List.take_append_drop]

/-- A handler treats the byte string exactly: it performs the request that the byte string holds,
and refuses a byte string that holds none. -/
def HandledExactly (l : PathRequest ρ) (handle : List UInt8 → σ → κ) (perform : ρ → σ → κ)
    (refuse : ReadErr → σ → κ) (data : List UInt8) : Prop :=
  ∀ s, (∀ r, l.Carries data r → handle data s = perform r s) ∧
    ((∀ r, ¬ l.Carries data r) → ∃ e, handle data s = refuse e s)

/-- **The byte strings that are handled exactly** by a handler that reads a request and performs
it, when a request that is performed can be told from one that is refused. -/
theorem handledExactly_iff [Nonempty σ] {handle : List UInt8 → σ → κ} {perform : ρ → σ → κ}
    {refuse : ReadErr → σ → κ}
    (herror : ∀ e s, decode l.reader data = .error e → handle data s = refuse e s)
    (hok : ∀ r s, decode l.reader data = .ok r → handle data s = perform r s)
    (hne : ∀ r e s, perform r s ≠ refuse e s) :
    l.HandledExactly handle perform refuse data ↔ l.PathRead data := by
  constructor
  · intro h
    obtain ⟨s⟩ := ‹Nonempty σ›
    obtain ⟨hcarries, hrefused⟩ := h s
    refine ⟨fun ⟨hlen, hzero⟩ => ?_, fun ⟨hlt, hcut⟩ => ?_⟩
    · have hle : l.fixedSize + l.announced data * 2 ≤ data.length := by omega
      obtain ⟨r, hr⟩ := exists_carries hle
      match hdecode : decode l.reader data with
      | .error e => exact hne r e s ((hcarries r hr).symm.trans (herror e s hdecode))
      | .ok r' => exact absurd (decode_eq_ok_iff.mp ⟨r', hdecode⟩) (by omega)
    · obtain ⟨r, hr⟩ := (decode_eq_ok_iff (l := l)).mpr hlt
      obtain ⟨e, he⟩ := hrefused fun r' hr' => absurd hr'.le_length (by omega)
      exact hne r e s ((hok r s hr).symm.trans he)
  · intro h s
    refine ⟨fun r hr => ?_, fun hnone => ?_⟩
    · have hlen : data.length ≠ l.fixedSize := by
        intro hlen
        have hle := hr.le_length
        exact h.not_empty ⟨hlen, by omega⟩
      exact hok r s (hr.decode_eq hlen)
    · match hdecode : decode l.reader data with
      | .error e => exact ⟨e, herror e s hdecode⟩
      | .ok r =>
        have hlt := decode_eq_ok_iff.mp ⟨r, hdecode⟩
        have hcut := h.not_cut
        have hle : l.fixedSize + l.announced data * 2 ≤ data.length := by omega
        obtain ⟨r', hr'⟩ := exists_carries hle
        exact absurd hr' (hnone r')

theorem pathRead_iff : l.PathRead data ↔
    ¬ (data.length = l.fixedSize ∧ data.getD l.sizeAt 0 = 0) ∧
      ¬ (l.fixedSize < data.length ∧
        data.length < l.fixedSize + (data.getD l.sizeAt 0).toNat * 2) := by
  rw [← UInt8.toNat_inj]
  exact ⟨fun h => ⟨h.not_empty, h.not_cut⟩, fun h => ⟨h.1, h.2⟩⟩

end PathRequest

/-! ### The fixed parts -/

theorem ofNat_half_length {path : List UInt8} {size : UInt8} (h : path.length = size.toNat * 2) :
    UInt8.ofNat (path.length / 2) = size := by
  rw [h, Nat.mul_div_cancel _ Nat.two_pos, UInt8.ofNat_toNat]

namespace ForwardOpenRequest

def fixedPart (r : ForwardOpenRequest) : List UInt8 :=
  [r.priorityTimeTick] ++ ([r.timeoutTicks] ++ (putUint32 r.otConnectionID ++
    (putUint32 r.toConnectionID ++ (putUint16 r.connectionSerialNumber ++ (putUint16 r.vendorID ++
    (putUint32 r.originatorSerialNumber ++ ([r.connectionTimeoutMultiplier] ++
    (r.reserved.toList ++ (putUint32 r.otRPI ++ (putUint16 r.otNetworkConnectionParams ++
    (putUint32 r.toRPI ++ (putUint16 r.toNetworkConnectionParams ++ ([r.transportTypeTrigger] ++
    [r.connectionPathSize])))))))))))))

/-- The fields up to the path. -/
def readFixed : Reader ForwardOpenRequest := do
  let priorityTimeTick ← uint8
  let timeoutTicks ← uint8
  let otConnectionID ← uint32
  let toConnectionID ← uint32
  let connectionSerialNumber ← uint16
  let vendorID ← uint16
  let originatorSerialNumber ← uint32
  let connectionTimeoutMultiplier ← uint8
  let reserved ← readArray 3
  let otRPI ← uint32
  let otNetworkConnectionParams ← uint16
  let toRPI ← uint32
  let toNetworkConnectionParams ← uint16
  let transportTypeTrigger ← uint8
  let connectionPathSize ← uint8
  return ⟨priorityTimeTick, timeoutTicks, otConnectionID, toConnectionID, connectionSerialNumber,
    vendorID, originatorSerialNumber, connectionTimeoutMultiplier, reserved, otRPI,
    otNetworkConnectionParams, toRPI, toNetworkConnectionParams, transportTypeTrigger,
    connectionPathSize, []⟩

theorem takes_readFixed : Takes 36 readFixed :=
  takes_uint8.bind fun _ => takes_uint8.bind fun _ => takes_uint32.bind fun _ =>
    takes_uint32.bind fun _ => takes_uint16.bind fun _ => takes_uint16.bind fun _ =>
    takes_uint32.bind fun _ => takes_uint8.bind fun _ => (takes_readArray 3).bind fun _ =>
    takes_uint32.bind fun _ => takes_uint16.bind fun _ => takes_uint32.bind fun _ =>
    takes_uint16.bind fun _ => takes_uint8.bind fun _ => takes_uint8.bind fun _ => takes_pure _

theorem consumes_readFixed (r : ForwardOpenRequest) :
    Consumes readFixed r.fixedPart { r with connectionPath := [] } := by
  refine (consumes_uint8 _).bind <| (consumes_uint8 _).bind <| (consumes_uint32 _).bind <|
    (consumes_uint32 _).bind <| (consumes_uint16 _).bind <| (consumes_uint16 _).bind <|
    (consumes_uint32 _).bind <| (consumes_uint8 _).bind <| (consumes_readArray _).bind <|
    (consumes_uint32 _).bind <| (consumes_uint16 _).bind <| (consumes_uint32 _).bind <|
    (consumes_uint16 _).bind <| (consumes_uint8 _).bind ?_
  exact (consumes_uint8 _).map fun connectionPathSize =>
    { r with connectionPathSize, connectionPath := [] }

theorem readFixed_eq_ok {bs : List UInt8} {r : ForwardOpenRequest} {rest : List UInt8} :
    readFixed bs = .ok (r, rest) ↔ r.connectionPath = [] ∧ bs = r.fixedPart ++ rest := by
  constructor
  · intro h
    simp only [readFixed, bind_eq_ok, pure_eq_ok, uint8_eq_ok, uint16_eq_ok, uint32_eq_ok,
      readArray_eq_ok] at h
    obtain ⟨_, _, h₁, _, _, h₂, _, _, h₃, _, _, h₄, _, _, h₅, _, _, h₆, _, _, h₇, _, _, h₈,
      _, _, h₉, _, _, h₁₀, _, _, h₁₁, _, _, h₁₂, _, _, h₁₃, _, _, h₁₄, _, _, h₁₅, rfl, rfl⟩ := h
    -- the equations are chained, each for what the one before it left over
    rw [h₁, h₂, h₃, h₄, h₅, h₆, h₇, h₈, h₉, h₁₀, h₁₁, h₁₂, h₁₃, h₁₄, h₁₅]
    exact ⟨rfl, by simp [fixedPart]⟩
  · rintro ⟨hpath, rfl⟩
    have h := consumes_readFixed r rest
    rwa [← hpath] at h

/-- A Forward_Open ends in the path to its connection points. -/
def pathRequest : PathRequest ForwardOpenRequest where
  readFixed := readFixed
  fixedPart := fixedPart
  pathSize := connectionPathSize
  path := connectionPath
  withPath r connectionPath := { r with connectionPath }
  encode := encode
  fixedSize := 36
  sizeAt := 35
  sizeAt_lt := by decide
  length_fixedPart r := by simp [fixedPart]
  getD_fixedPart r := by
    rw [fixedPart]
    repeat rw [List.getD_append_right _ _ _ _ (by simp)]
    simp
  takes_readFixed := takes_readFixed
  readFixed_eq_ok := readFixed_eq_ok
  path_withPath _ _ := rfl
  withPath_path _ _ := rfl
  fixedPart_withPath _ _ := rfl
  pathSize_withPath _ _ := rfl
  encode_eq r h := by
    rw [encode, ofNat_half_length h]
    simp only [fixedPart, List.append_assoc]

theorem reader_pathRequest : pathRequest.reader = readForwardOpen := by
  simp only [PathRequest.reader, pathRequest, readFixed, readForwardOpen, bind_assoc, pure_bind]

end ForwardOpenRequest

namespace ForwardCloseRequest

def fixedPart (r : ForwardCloseRequest) : List UInt8 :=
  [r.priorityTimeTick] ++ ([r.timeoutTicks] ++ (putUint16 r.connectionSerialNumber ++
    (putUint16 r.vendorID ++ (putUint32 r.originatorSerialNumber ++
    ([r.connectionPathSize] ++ [r.reserved])))))

/-- The fields up to the path. -/
def readFixed : Reader ForwardCloseRequest := do
  let priorityTimeTick ← uint8
  let timeoutTicks ← uint8
  let connectionSerialNumber ← uint16
  let vendorID ← uint16
  let originatorSerialNumber ← uint32
  let connectionPathSize ← uint8
  let reserved ← uint8
  return ⟨priorityTimeTick, timeoutTicks, connectionSerialNumber, vendorID, originatorSerialNumber,
    connectionPathSize, reserved, []⟩

theorem takes_readFixed : Takes 12 readFixed :=
  takes_uint8.bind fun _ => takes_uint8.bind fun _ => takes_uint16.bind fun _ =>
    takes_uint16.bind fun _ => takes_uint32.bind fun _ => takes_uint8.bind fun _ =>
    takes_uint8.bind fun _ => takes_pure _

theorem consumes_readFixed (r : ForwardCloseRequest) :
    Consumes readFixed r.fixedPart { r with connectionPath := [] } := by
  refine (consumes_uint8 _).bind <| (consumes_uint8 _).bind <| (consumes_uint16 _).bind <|
    (consumes_uint16 _).bind <| (consumes_uint32 _).bind <| (consumes_uint8 _).bind ?_
  exact (consumes_uint8 _).map fun reserved => { r with reserved, connectionPath := [] }

theorem readFixed_eq_ok {bs : List UInt8} {r : ForwardCloseRequest} {rest : List UInt8} :
    readFixed bs = .ok (r, rest) ↔ r.connectionPath = [] ∧ bs = r.fixedPart ++ rest := by
  constructor
  · intro h
    simp only [readFixed, bind_eq_ok, pure_eq_ok, uint8_eq_ok, uint16_eq_ok, uint32_eq_ok] at h
    obtain ⟨_, _, rfl, _, _, rfl, _, _, rfl, _, _, rfl, _, _, rfl, _, _, rfl, _, _, rfl, rfl,
      rfl⟩ := h
    exact ⟨rfl, by simp [fixedPart]⟩
  · rintro ⟨hpath, rfl⟩
    have h := consumes_readFixed r rest
    rwa [← hpath] at h

/-- In a Forward_Close a reserved byte stands between the path size and the path. -/
def pathRequest : PathRequest ForwardCloseRequest where
  readFixed := readFixed
  fixedPart := fixedPart
  pathSize := connectionPathSize
  path := connectionPath
  withPath r connectionPath := { r with connectionPath }
  encode := encode
  fixedSize := 12
  sizeAt := 10
  sizeAt_lt := by decide
  length_fixedPart r := by simp [fixedPart]
  getD_fixedPart r := rfl
  takes_readFixed := takes_readFixed
  readFixed_eq_ok := readFixed_eq_ok
  path_withPath _ _ := rfl
  withPath_path _ _ := rfl
  fixedPart_withPath _ _ := rfl
  pathSize_withPath _ _ := rfl
  encode_eq r h := by
    rw [encode, ofNat_half_length h]
    simp only [fixedPart, List.append_assoc]

theorem reader_pathRequest : pathRequest.reader = readForwardClose := by
  simp only [PathRequest.reader, pathRequest, readFixed, readForwardClose, bind_assoc, pure_bind]

end ForwardCloseRequest

/-! ### What the manager does -/

namespace ConnectionManager

/-- What comes of a request: the answer, the manager afterwards, and the calls of the callback that
the handler makes. -/
structure Effect (κ : Type) where
  result : Except (Fault Err) (List UInt8)
  connMgr : ConnectionManager
  calls : List κ

/-- A request that cannot be read. -/
def refuse {κ : Type} (e : ReadErr) (cm : ConnectionManager) : Effect κ :=
  ⟨.error (.error (.read e)), cm, []⟩

/-- The connection is put into the table, and `onOpen` is called with it and the request. -/
def performOpen (req : ForwardOpenRequest) (cm : ConnectionManager) :
    Effect (Connection × ForwardOpenRequest) :=
  match cm.openConnection req with
  | (.error e, connMgr) => ⟨.error (.error (.cip e)), connMgr, []⟩
  | (.ok conn, connMgr) => ⟨.ok (forwardOpenResponse req conn), connMgr, [(conn, req)]⟩

/-- The connection is taken out of the table, and `onClose` is called with it if there was one. -/
def performClose (req : ForwardCloseRequest) (cm : ConnectionManager) : Effect Connection :=
  let (closed, connMgr) := cm.closeConnection req
  ⟨.ok (forwardCloseResponse req), connMgr, closed.toList⟩

def serveForwardOpen (reqData : List UInt8) (cm : ConnectionManager) :
    Effect (Connection × ForwardOpenRequest) :=
  match decode readForwardOpen reqData with
  | .error e => refuse e cm
  | .ok req => performOpen req cm

def serveForwardClose (reqData : List UInt8) (cm : ConnectionManager) : Effect Connection :=
  match decode readForwardClose reqData with
  | .error e => refuse e cm
  | .ok req => performClose req cm

/-- Without the calls these are the handlers of the router. -/
theorem handleForwardOpen_eq (reqData : List UInt8) (cm : ConnectionManager) :
    cm.handleForwardOpen reqData =
      ((cm.serveForwardOpen reqData).result, (cm.serveForwardOpen reqData).connMgr) := by
  rw [handleForwardOpen, serveForwardOpen]
  cases decode readForwardOpen reqData with
  | error e => rfl
  | ok req =>
    dsimp only
    rw [performOpen]
    rcases cm.openConnection req with ⟨e | conn, connMgr⟩ <;> rfl

theorem handleForwardClose_eq (reqData : List UInt8) (cm : ConnectionManager) :
    cm.handleForwardClose reqData =
      ((cm.serveForwardClose reqData).result, (cm.serveForwardClose reqData).connMgr) := by
  rw [handleForwardClose, serveForwardClose]
  cases decode readForwardClose reqData <;> rfl

theorem performOpen_ne_refuse (req : ForwardOpenRequest) (e : ReadErr) (cm : ConnectionManager) :
    performOpen req cm ≠ refuse e cm := by
  rw [performOpen, refuse]
  split <;> simp

theorem performClose_ne_refuse (req : ForwardCloseRequest) (e : ReadErr)
    (cm : ConnectionManager) : performClose req cm ≠ refuse e cm := by
  simp [performClose, refuse]

instance : Nonempty ConnectionManager := ⟨newConnectionManager⟩

end ConnectionManager

/-- Service data is handled exactly as a Forward_Open: when it holds a request, that request is
performed, and otherwise it is refused and nothing is opened. -/
def OpenExact : List UInt8 → Prop :=
  ForwardOpenRequest.pathRequest.HandledExactly (fun data cm => cm.serveForwardOpen data)
    ConnectionManager.performOpen ConnectionManager.refuse

/-- Service data is handled exactly as a Forward_Close. -/
def CloseExact : List UInt8 → Prop :=
  ForwardCloseRequest.pathRequest.HandledExactly (fun data cm => cm.serveForwardClose data)
    ConnectionManager.performClose ConnectionManager.refuse

theorem openExact_iff (data : List UInt8) :
    OpenExact data ↔ ForwardOpenRequest.pathRequest.PathRead data := by
  refine PathRequest.handledExactly_iff (fun e cm h => ?_) (fun req cm h => ?_)
    ConnectionManager.performOpen_ne_refuse
  all_goals
    rw [ForwardOpenRequest.reader_pathRequest] at h
    rw [ConnectionManager.serveForwardOpen, h]

theorem closeExact_iff (data : List UInt8) :
    CloseExact data ↔ ForwardCloseRequest.pathRequest.PathRead data := by
  refine PathRequest.handledExactly_iff (fun e cm h => ?_) (fun req cm h => ?_)
    ConnectionManager.performClose_ne_refuse
  all_goals
    rw [ForwardCloseRequest.reader_pathRequest] at h
    rw [ConnectionManager.serveForwardClose, h]

/-- **Forward_Open and Forward_Close are handled exactly**, but for two kinds of service data: a
fixed part that announces no path with nothing behind it, and a path that is cut short but not
missing altogether. -/
theorem forwardRequests_exact_iff (data : List UInt8) :
    (OpenExact data ↔
      ¬ (data.length = 36 ∧ data.getD 35 0 = 0) ∧
        ¬ (36 < data.length ∧ data.length < 36 + (data.getD 35 0).toNat * 2)) ∧
    (CloseExact data ↔
      ¬ (data.length = 12 ∧ data.getD 10 0 = 0) ∧
        ¬ (12 < data.length ∧ data.length < 12 + (data.getD 10 0).toNat * 2)) := by
  rw [openExact_iff, closeExact_iff]
  exact ⟨PathRequest.pathRead_iff, PathRequest.pathRead_iff⟩

/-- A Forward_Close with three bytes of a path of four is read as one with a zero at the end, and a
Forward_Open with an empty path is refused. -/
theorem forwardRequests_inexact :
    decode readForwardClose ((closeRequest 1).encode.take 15) =
      .ok ⟨0x0A, 0xF0, 1, 1, 1, 2, 0, [0x20, 0x04, 0x24, 0x00]⟩ ∧
    ¬ CloseExact ((closeRequest 1).encode.take 15) ∧
    decode readForwardOpen { openRequest 1 with connectionPath := [] }.encode = .error .eof ∧
    ¬ OpenExact { openRequest 1 with connectionPath := [] }.encode := by
  rw [closeExact_iff, openExact_iff]
  exact ⟨by decide +kernel, fun h => h.not_cut (by decide +kernel), by decide +kernel,
    fun h => h.not_empty (by decide +kernel)⟩

end GoIndustrial.EtherNetIP
