import GoIndustrial.EtherNetIP.Objects

/-!
# Datagrams of implicit messaging

Cyclic data arrives in UDP datagrams with two items: the first has the identifier of the connection,
the second a sequence count, possibly a header of four bytes with the run or idle state, and the
data. The adapter runtime of `protocol/ethernetip/runtime/runtime.go` writes the data into the
assembly that the connection is bound to, and the scanner of `protocol/ethernetip/io.go` into the
input buffer of the connection. Both drop a datagram that is too short for what it announces. They
were written separately: the runtime checks the length of the first item and the scanner does not,
and the runtime notes the time before it looks at the payload.

## Main definitions

* `EtherNetIP.Runtime`, `EtherNetIP.Runtime.handlePacket` : the adapter.
* `EtherNetIP.IOScanner`, `EtherNetIP.IOScanner.handleIncomingPacket` : the scanner.
-/

namespace GoIndustrial.EtherNetIP

open GoSlice

/-- The connection identifier of the first item and the data of the second, unless the datagram ends
before the data does. -/
def addressedData (data : List UInt8) : Except (Fault Err) (Option (UInt32 × List UInt8)) := do
  let connID ← uint32LEAt data 6
  let dataLen ← uint16LEAt data 12
  if data.length < 14 + dataLen.toNat then return none
  else
    let payload ← slice data 14 (14 + dataLen.toNat)
    return some (connID, payload)

theorem safe_addressedData {E : Err → Prop} {data : List UInt8} (h : 14 ≤ data.length) :
    Safe (addressedData data) (fun _ => True) E := by
  refine (safe_uint32LEAt (by omega)).bind fun connID _ => ?_
  refine (safe_uint16LEAt (by omega)).bind fun dataLen _ => ?_
  refine .ite (fun _ => trivial) fun hlen => ?_
  exact (safe_slice (Nat.le_add_right _ _) (Nat.not_lt.mp hlen)).bind fun _ _ => trivial

/-- The sequence count and, if there is one, the header with the run or idle state. -/
def dataOffset (runIdleHeader : Bool) : ℕ := if runIdleHeader then 6 else 2

/-! ### Times and addresses -/

/-- `net.UDPAddr`. -/
structure UDPAddr where
  ip : List UInt8
  port : ℕ
  deriving DecidableEq, Repr

/-- `t.Sub(u)`, which stays within the durations of 64 bits. -/
def timeSub (t u : ℤ) : ℤ := max (-2 ^ 63) (min (2 ^ 63 - 1) (t - u))

/-- `RPI * time.Duration(uint64(4) << mult)`: both the shift and the product are cut to 64 bits. -/
def watchdogTimeout (rpi : ℤ) (mult : UInt8) : ℤ := (rpi * (4 * 2 ^ mult.toNat)).bmod (2 ^ 64)

/-! ### The adapter -/

/-- A cyclic connection of the adapter. Times are in nanoseconds. -/
structure IOConnection where
  connectionID : UInt32
  rpi : ℤ
  sequenceCount : UInt16
  runIdleHeader : Bool
  remoteAddr : Option UDPAddr
  /-- The instance number of the bound assembly. -/
  assembly : Option UInt32
  lastReceive : ℤ
  lastSend : ℤ
  timeoutMult : UInt8
  isProducer : Bool
  isConsumer : Bool
  deriving DecidableEq, Repr

structure Runtime where
  connections : UInt32 → Option IOConnection
  assemblyObj : AssemblyObject

namespace Runtime

def newRuntime (ao : AssemblyObject) : Runtime := ⟨fun _ => none, ao⟩

/-- A connection replaces the one that has its identifier. -/
def addConnection (r : Runtime) (conn : IOConnection) (now : ℤ) : Runtime :=
  { r with
    connections := Function.update r.connections conn.connectionID
      (some { conn with lastReceive := now }) }

def removeConnection (r : Runtime) (connID : UInt32) : Runtime :=
  { r with connections := Function.update r.connections connID none }

def setProducerAddr (r : Runtime) (connID : UInt32) (addr : UDPAddr) : Runtime :=
  match r.connections connID with
  | none => r
  | some conn =>
    { r with
      connections :=
        Function.update r.connections connID (some { conn with remoteAddr := some addr }) }

/-- Nothing has arrived for longer than the watchdog allows; only consumers are watched. -/
def timedOut (conn : IOConnection) (now : ℤ) : Bool :=
  conn.isConsumer &&
    decide (watchdogTimeout conn.rpi conn.timeoutMult < timeSub now conn.lastReceive)

/-- The connections that have timed out are removed; whether one is removed does not depend on the
others. -/
def checkTimeouts (r : Runtime) (now : ℤ) : Runtime :=
  { r with connections := fun id => (r.connections id).filter fun conn => !timedOut conn now }

/-- Write the payload of a connection into the bound assembly; the error of the assembly object is
not looked at. -/
def consume (r : Runtime) (conn : IOConnection) (payload : List UInt8) :
    Except (Fault Err) Runtime :=
  if payload.length < dataOffset conn.runIdleHeader then .ok r
  else
    match conn.assembly with
    | none => .ok r
    | some asmID => do
      let data ← sliceFrom payload (dataOffset conn.runIdleHeader)
      match r.assemblyObj.setAttributeSingle asmID 3 data with
      | (.error .panic, _) => .error .panic
      | (_, assemblyObj) => .ok { r with assemblyObj }

def handlePacket (r : Runtime) (data : List UInt8) (now : ℤ) : Except (Fault Err) Runtime :=
  if data.length < 14 then .ok r
  else do
    let itemCount ← uint16LEAt data 0
    if itemCount ≠ 2 then return r
    else
      let len1 ← uint16LEAt data 4
      if len1 ≠ 4 then return r
      else
        match ← addressedData data with
        | none => return r
        | some (connID, payload) =>
          match r.connections connID with
          | none => return r
          | some conn =>
            let conn := { conn with lastReceive := now }
            { r with connections := Function.update r.connections connID (some conn) }.consume conn
              payload

end Runtime

/-! ### The scanner -/

/-- A connection that the scanner has opened. Times are in nanoseconds. -/
structure IOConn where
  otConnectionID : UInt32
  toConnectionID : UInt32
  connectionSerialNumber : UInt16
  vendorID : UInt16
  originatorSerialNumber : UInt32
  outputData : List UInt8
  inputData : List UInt8
  rpi : ℤ
  sequenceCount : UInt16
  lastReceive : ℤ
  timeoutMult : UInt8
  runIdleHeader : Bool
  remoteAddr : UDPAddr
  deriving DecidableEq, Repr

structure IOScanner where
  connections : UInt32 → Option IOConn

namespace IOScanner

/-- Data of another size than the buffer does not replace it; the time is noted all the same. -/
def consume (s : IOScanner) (connID : UInt32) (conn : IOConn) (payload : List UInt8) (now : ℤ) :
    Except (Fault Err) IOScanner :=
  if dataOffset conn.runIdleHeader > payload.length then .ok s
  else do
    let assemblyData ← sliceFrom payload (dataOffset conn.runIdleHeader)
    let inputData :=
      if assemblyData.length = conn.inputData.length then assemblyData else conn.inputData
    let conn := { conn with inputData, lastReceive := now }
    return ⟨Function.update s.connections connID (some conn)⟩

def handleIncomingPacket (s : IOScanner) (data : List UInt8) (now : ℤ) :
    Except (Fault Err) IOScanner :=
  if data.length < 16 then .ok s
  else do
    let itemCount ← uint16LEAt data 0
    if itemCount ≠ 2 then return s
    else
      match ← addressedData data with
      | none => return s
      | some (connID, payload) =>
        match s.connections connID with
        | none => return s
        | some conn => s.consume connID conn payload now

end IOScanner

end GoIndustrial.EtherNetIP
