import GoIndustrial.Lib.TransitionSystem
import GoIndustrial.Pccc.BitWrite
import Mathlib.Data.Fintype.Basic
import Mathlib.Data.Set.Insert

/-!
# Concurrent writes to bits of one word

Several bit writes through one client (`writeAddress_eq_writeBit`). Taking a transaction number is
an atomic step of the client and an exchange is an atomic step of the controller; between the two
exchanges of one bit write, the exchanges of others may come. A write to another bit of the word
that comes in between is undone: the word that is written back is the one that was read before it.
As long as no word is written back while another bit write is between its two exchanges, no write is
lost.

## Main definitions

* `Pccc.BitWrites` : bit writes to distinct bits of one word.
* `Pccc.Race`, `Pccc.raceSystem` : the writes in progress and their interleavings.
* `Pccc.BitsKept` : every written bit has its value, all other bits are unchanged.
* `Pccc.WritesApart` : nobody else is between its exchanges when a word is written back.

## Main results

* `Pccc.bitsKept_of_writesApart` : nothing is lost in runs with this condition.
* `Pccc.not_bitsKept_twoWriters` : a run of two writers that loses one.
-/

namespace GoIndustrial.Pccc

open LittleEndian

/-! ### The exchanges of a bit write -/

section Exchange

variable {ε α β : Type}

/-- Take a transaction number, ship the command for it, and go on with the reply. -/
def exchange (cmd : UInt16 → List UInt8) (k : List UInt8 → Program ε α) : Program ε α := do
  let tns ← Program.nextTNS
  let raw ← Program.execute (cmd tns)
  k raw

/-- Where a program is that has an exchange in front of it: it may have its number already. -/
inductive InExchange (cmd : UInt16 → List UInt8) (k : List UInt8 → Program ε α) :
    Program ε α → Prop
  | start : InExchange cmd k (exchange cmd k)
  | numbered (tns : UInt16) : InExchange cmd k (Program.execute (cmd tns) >>= k)

def readCmd (a : Address) (tns : UInt16) : List UInt8 :=
  commandHead tns funcProtectedTypedLogicalRead ++
    .ofInt 2 :: addressFields a.fileNumber a.fileType a.element a.subElement

def writeCmd (a : Address) (data : List UInt8) (tns : UInt16) : List UInt8 :=
  commandHead tns funcProtectedTypedLogicalWrite ++
    (addressFields a.fileNumber a.fileType a.element a.subElement ++ data)

/-- What a bit write does with the reply to its read. -/
def afterRead (a : Address) (on : Bool) (rawReply : List UInt8) : Program ε Unit := do
  let reply ← .ofFrame (decodeReply rawReply)
  if reply.data.length < 2 then throw (.writeBitShortRead reply.data.length)
  else
    let word := maskBit (uint16 (reply.data.take 2)) a.bitNum on
    writeBytes a.wordAddr [word.toUInt8, (word >>> 8).toUInt8]

/-- What a write does with its reply. -/
def afterWrite (rawReply : List UInt8) : Program ε Unit := do
  let _ ← .ofFrame (decodeReply rawReply)

variable {a : Address}

theorem writeBit_eq_exchange (ha : a.Valid) (hbit : 0 ≤ a.bitNum) (on : Bool) :
    (writeBit a on : Program ε Unit) = exchange (readCmd a) (afterRead a on) := by
  have hcmd := fun tns => (ha.wordAddr hbit).encodeTypedRead tns (by decide : (1 : ℤ) ≤ 2)
    (by decide)
  rw [writeBit, rawRead, if_neg (by decide)]
  simp only [hcmd]
  refine congrArg (CallTree.call PcccCall.nextTNS) (funext fun tns => ?_)
  refine congrArg (CallTree.call (PcccCall.execute _)) (funext fun r => ?_)
  cases r with
  | error e => rfl
  | ok raw =>
    change ((Program.ofFrame (decodeReply raw) >>= fun reply => pure reply.data) >>= _ :
      Program ε Unit) = afterRead a on raw
    rw [afterRead]
    cases decodeReply raw <;> rfl

theorem writeBytes_eq_exchange (ha : a.Valid) {data : List UInt8} (hne : data ≠ [])
    (hlen : data.length ≤ 240) :
    (writeBytes a data : Program ε Unit) = exchange (writeCmd a data) afterWrite := by
  rw [writeBytes, exchange]
  congr 1
  funext tns
  rw [ha.encodeTypedWrite tns hne hlen]
  rfl

/-- The read of a bit write, answered by a table. -/
theorem afterRead_execute (ha : a.Valid) (hbit : 0 ≤ a.bitNum) (on : Bool) (dt : DataTable)
    (tns : UInt16) :
    (dt.execute (readCmd a tns)).2 = dt ∧
    ((dt.wordAt a = none ∧
      (afterRead a on (dt.execute (readCmd a tns)).1 : Program ε Unit) =
        CallTree.ret (.error refused)) ∨
    ∃ w, dt.wordAt a = some w ∧
      (afterRead a on (dt.execute (readCmd a tns)).1 : Program ε Unit) =
        exchange (writeCmd a (putUint16 (maskBit w a.bitNum on))) afterWrite) := by
  have hexec := execute_read dt (ha.wordAddr hbit) tns (by decide : (0 : ℤ) ≤ 2) (by decide)
  rw [show (2 : ℤ).toNat = 2 from rfl, DataTable.read_two,
    show dt.wordAt a.wordAddr = dt.wordAt a from rfl] at hexec
  rw [show readCmd a tns = commandHead tns funcProtectedTypedLogicalRead ++ .ofInt 2 ::
    addressFields a.wordAddr.fileNumber a.wordAddr.fileType a.wordAddr.element
      a.wordAddr.subElement from rfl, hexec]
  cases hw : dt.wordAt a with
  | none => exact ⟨rfl, .inl ⟨rfl, rfl⟩⟩
  | some w =>
    refine ⟨rfl, .inr ⟨w, rfl, ?_⟩⟩
    let buf := putUint16 (maskBit w a.bitNum on)
    have hne : buf ≠ [] := List.cons_ne_nil _ _
    have hlen : buf.length ≤ 240 := by
      rw [length_putUint16]
      decide
    change afterRead a on (replyTo tns 0 (putUint16 w)) = _
    rw [afterRead, decodeReply_replyTo]
    change writeBytes a.wordAddr
      [(maskBit (uint16 ((putUint16 w).take 2)) a.bitNum on).toUInt8,
        ((maskBit (uint16 ((putUint16 w).take 2)) a.bitNum on) >>> 8).toUInt8] = _
    rw [← putUint16_eq_shifts, List.take_of_length_le (length_putUint16 w).le, uint16_putUint16,
      writeBytes_eq_exchange (ha.wordAddr hbit) hne hlen]
    rfl

/-- The write of a bit write, answered by a table that has the word. -/
theorem afterWrite_execute (ha : a.Valid) {data : List UInt8} {dt dt' : DataTable}
    (h : dt.write a data = some dt') (tns : UInt16) :
    (dt.execute (writeCmd a data tns)).2 = dt' ∧
      (afterWrite (dt.execute (writeCmd a data tns)).1 : Program ε Unit) =
        CallTree.ret (.ok ()) := by
  rw [writeCmd, execute_write dt ha, h]
  refine ⟨rfl, ?_⟩
  dsimp only
  rw [afterWrite, decodeReply_replyTo]
  rfl

end Exchange

/-! ### Interleavings -/

/-- Bit writes to distinct bits of one word. -/
structure BitWrites (ι : Type) where
  addr : ι → Address
  on : ι → Bool
  /-- The word that the bits are in. -/
  word : Address
  valid : ∀ i, (addr i).Valid
  isBit : ∀ i, 0 ≤ (addr i).bitNum
  sameWord : ∀ i, (addr i).wordAddr = word
  distinct : Function.Injective fun i => (addr i).bitNum

/-- A bit write in progress: how many exchanges it has made, and what is left of it. -/
structure BitJob (ε : Type) where
  exchanges : ℕ
  rest : Program ε Unit

/-- The client with its controller, and the bit writes. -/
structure Race (ε ι : Type) where
  link : Link DataTable
  jobs : ι → BitJob ε

/-- 1 for an exchange, 0 for a call that only the client sees. -/
def PcccCall.exchanges {ε β : Type} : PcccCall ε β → ℕ
  | .nextTNS => 0
  | .execute _ => 1

section System

variable {ε ι : Type} [DecidableEq ι]

/-- The next call of the bit write `i`. -/
def Race.step (s : Race ε ι) (i : ι) : Option (Race ε ι) :=
  match (s.jobs i).rest with
  | .ret _ => none
  | .call c k => some ⟨(perform DataTable.executor c s.link).2, Function.update s.jobs i
      ⟨(s.jobs i).exchanges + c.exchanges, k (perform DataTable.executor c s.link).1⟩⟩

/-- The bit writes `W`, none of which has made a call yet. -/
def raceSystem (W : BitWrites ι) (l : Link DataTable) : TransitionSystem (Race ε ι) ι where
  init := ⟨l, fun i => ⟨0, writeBit (W.addr i) (W.on i)⟩⟩
  step := Race.step

/-! ### Writes that are kept -/

/-- From the table `dt₀` to `dt`, the bits of the writes in `done` have taken their values and all
other bits of all files are unchanged. -/
structure BitsKept (W : BitWrites ι) (done : Set ι) (dt₀ dt : DataTable) : Prop where
  written : ∀ i ∈ done, dt.bit (.ofInt W.word.fileNumber) W.word.wordIndex
    (W.addr i).bitNum.toNat = some (W.on i)
  others : ∀ n j k, (∀ i ∈ done, ¬(n = .ofInt W.word.fileNumber ∧ j = W.word.wordIndex ∧
    k = (W.addr i).bitNum.toNat)) → dt.bit n j k = dt₀.bit n j k

/-- The write has ended without an error. -/
def BitJob.done (job : BitJob ε) : Bool :=
  match job.rest with
  | .ret (.ok _) => true
  | _ => false

/-- The write has read its word and not yet written it back. -/
def BitJob.between (job : BitJob ε) : Bool :=
  match job.rest with
  | .ret _ => false
  | .call _ _ => job.exchanges == 1

/-- The write is about to write its word back. -/
def BitJob.writesBack (job : BitJob ε) : Bool :=
  match job.rest with
  | .call (.execute _) _ => job.exchanges == 1
  | _ => false

/-- When a word is written back, no other write is between its exchanges. -/
def WritesApart (s : Race ε ι) (i : ι) : Prop :=
  (s.jobs i).writesBack = true → ∀ j, j ≠ i → (s.jobs j).between = false

instance [Fintype ι] (s : Race ε ι) (i : ι) : Decidable (WritesApart s i) :=
  inferInstanceAs (Decidable (_ → ∀ j, j ≠ i → (s.jobs j).between = false))

/-- Where a bit write is; the word that one has read is still that of the table. -/
inductive BitPhase (a : Address) (on : Bool) (dt : DataTable) : BitJob ε → Prop
  | reading {p : Program ε Unit} (h : InExchange (readCmd a) (afterRead a on) p) :
      BitPhase a on dt ⟨0, p⟩
  | writing {p : Program ε Unit} {w : UInt16} (hw : dt.wordAt a = some w)
      (h : InExchange (writeCmd a (putUint16 (maskBit w a.bitNum on))) afterWrite p) :
      BitPhase a on dt ⟨1, p⟩
  | failed (e : ClientErr ε) : BitPhase a on dt ⟨1, CallTree.ret (.error e)⟩
  | done : BitPhase a on dt ⟨2, CallTree.ret (.ok ())⟩

/-- The invariant of runs whose writes are apart. -/
structure RaceInv (W : BitWrites ι) (dt₀ : DataTable) (s : Race ε ι) : Prop where
  phase : ∀ i, BitPhase (W.addr i) (W.on i) s.link.device (s.jobs i)
  kept : BitsKept W {i | (s.jobs i).done = true} dt₀ s.link.device

section Steps

variable {cmd : UInt16 → List UInt8} {k : List UInt8 → Program ε Unit}

theorem InExchange.done {p : Program ε Unit} (h : InExchange cmd k p) (n : ℕ) :
    BitJob.done ⟨n, p⟩ = false := by
  cases h <;> rfl

theorem InExchange.between {p : Program ε Unit} (h : InExchange cmd k p) :
    BitJob.between ⟨1, p⟩ = true := by
  cases h <;> rfl

/-- A step of a write that has an exchange in front of it: it takes its number, or it makes the
exchange. -/
theorem Race.step_of_inExchange {s t : Race ε ι} {i : ι} {n : ℕ} {p : Program ε Unit}
    (hjob : s.jobs i = ⟨n, p⟩) (h : InExchange cmd k p) (hs : s.step i = some t) :
    (∃ p', InExchange cmd k p' ∧ t.link.device = s.link.device ∧
      t.jobs = Function.update s.jobs i ⟨n, p'⟩) ∨
    BitJob.writesBack ⟨1, p⟩ = true ∧ ∃ tns, t.link.device = (s.link.device.execute (cmd tns)).2 ∧
      t.jobs = Function.update s.jobs i ⟨n + 1, k (s.link.device.execute (cmd tns)).1⟩ := by
  rw [Race.step, hjob] at hs
  cases h with
  | start =>
    cases hs
    exact .inl ⟨_, .numbered (nextTNS s.link.tns).1, rfl, rfl⟩
  | numbered tns =>
    cases hs
    exact .inr ⟨rfl, tns, rfl, rfl⟩

end Steps

theorem RaceInv.init (W : BitWrites ι) (l : Link DataTable) :
    RaceInv W l.device (raceSystem (ε := ε) W l).init where
  phase i := by
    change BitPhase _ _ _ ⟨0, writeBit (W.addr i) (W.on i)⟩
    rw [writeBit_eq_exchange (W.valid i) (W.isBit i)]
    exact .reading .start
  kept := by
    have hnone : ∀ i, ((raceSystem (ε := ε) W l).init.jobs i).done = false := by
      intro i
      change BitJob.done ⟨0, writeBit (W.addr i) (W.on i)⟩ = false
      rw [writeBit_eq_exchange (W.valid i) (W.isBit i)]
      rfl
    exact ⟨fun i hi => (Bool.false_ne_true ((hnone i).symm.trans hi)).elim, fun _ _ _ _ => rfl⟩

omit [DecidableEq ι] in
/-- One more bit is written. -/
theorem BitsKept.insert {W : BitWrites ι} {done : Set ι} {dt₀ dt dt' : DataTable}
    (h : BitsKept W done dt₀ dt) {i : ι} (hi : i ∉ done)
    (hwritten : BitWritten dt dt' (W.addr i) (W.on i)) :
    BitsKept W (Insert.insert i done) dt₀ dt' := by
  have hfile : (W.addr i).fileNumber = W.word.fileNumber := by rw [← W.sameWord i]; rfl
  have hindex : (W.addr i).wordIndex = W.word.wordIndex := by rw [← W.sameWord i]; rfl
  refine ⟨fun j hj => ?_, fun n j k hother => ?_⟩
  · rw [hwritten.bits, hfile, hindex]
    rcases Set.mem_insert_iff.mp hj with rfl | hj
    · rw [if_pos ⟨rfl, rfl, rfl⟩]
    · have hne : (W.addr j).bitNum.toNat ≠ (W.addr i).bitNum.toNat := by
        intro he
        have hbits : (W.addr j).bitNum = (W.addr i).bitNum := by
          have h₁ := W.isBit i
          have h₂ := W.isBit j
          omega
        exact hi (W.distinct hbits ▸ hj)
      rw [if_neg fun hc => hne hc.2.2]
      exact h.written j hj
  · rw [hwritten.bits, hfile, hindex, if_neg (hother i (Set.mem_insert _ _))]
    exact h.others n j k fun i' hi' => hother i' (Set.mem_insert_of_mem _ hi')

/-- The invariant after a step of `i` that leaves the table alone and does not end it well. -/
theorem RaceInv.move {W : BitWrites ι} {dt₀ : DataTable} {s t : Race ε ι} (h : RaceInv W dt₀ s)
    {i : ι} {job : BitJob ε} (hdevice : t.link.device = s.link.device)
    (hjobs : t.jobs = Function.update s.jobs i job) (hold : (s.jobs i).done = false)
    (hnew : job.done = false)
    (hphase : BitPhase (W.addr i) (W.on i) s.link.device job) : RaceInv W dt₀ t where
  phase j := by
    rw [hdevice, hjobs, Function.update_apply]
    split_ifs with hj
    · exact hj ▸ hphase
    · exact h.phase j
  kept := by
    have hdone : {j | (t.jobs j).done = true} = {j | (s.jobs j).done = true} := by
      ext j
      rw [Set.mem_ofPred_eq, Set.mem_ofPred_eq, hjobs, Function.update_apply]
      split_ifs with hj
      · rw [hj, hnew, hold]
      · rfl
    rw [hdone, hdevice]
    exact h.kept

/-- The invariant after `i` has written its word back, nobody else being between its exchanges. -/
theorem RaceInv.writeBack {W : BitWrites ι} {dt₀ : DataTable} {s t : Race ε ι}
    (h : RaceInv W dt₀ s) {i : ι}
    (hwritten : BitWritten s.link.device t.link.device (W.addr i) (W.on i))
    (hjobs : t.jobs = Function.update s.jobs i ⟨2, CallTree.ret (.ok ())⟩)
    (hold : (s.jobs i).done = false) (hapart : ∀ j, j ≠ i → (s.jobs j).between = false) :
    RaceInv W dt₀ t where
  phase j := by
    rw [hjobs, Function.update_apply]
    split_ifs with hj
    · exact .done
    · have hnot := hapart j hj
      cases hjob : s.jobs j with
      | mk n p =>
        have hphase := h.phase j
        rw [hjob] at hphase hnot
        cases hphase with
        | reading hp => exact .reading hp
        | writing _ hp => exact (Bool.false_ne_true (hnot.symm.trans hp.between)).elim
        | failed e => exact .failed e
        | done => exact .done
  kept := by
    have hdone : {j | (t.jobs j).done = true} =
        Insert.insert i {j | (s.jobs j).done = true} := by
      ext j
      rw [Set.mem_ofPred_eq, Set.mem_insert_iff, Set.mem_ofPred_eq, hjobs, Function.update_apply]
      split_ifs with hj
      · exact iff_of_true rfl (.inl hj)
      · exact (or_iff_right hj).symm
    rw [hdone]
    refine h.kept.insert ?_ hwritten
    rw [Set.mem_ofPred_eq, hold]
    exact Bool.false_ne_true

theorem RaceInv.step {W : BitWrites ι} {dt₀ : DataTable} {s t : Race ε ι} (h : RaceInv W dt₀ s)
    {i : ι} (hapart : WritesApart s i) (hs : s.step i = some t) : RaceInv W dt₀ t := by
  have hphase := h.phase i
  cases hjob : s.jobs i with
  | mk n p =>
    rw [hjob] at hphase
    cases hphase with
    | reading hp =>
      rcases Race.step_of_inExchange hjob hp hs with
        ⟨p', hp', hdevice, hjobs⟩ | ⟨-, tns, hdevice, hjobs⟩
      · exact h.move hdevice hjobs (hjob ▸ hp.done _) (hp'.done _) (.reading hp')
      · obtain ⟨hsame, hread⟩ := afterRead_execute (ε := ε) (W.valid i) (W.isBit i) (W.on i)
          s.link.device tns
        rw [hsame] at hdevice
        rcases hread with ⟨-, hread⟩ | ⟨w, hw, hread⟩
        · rw [hread] at hjobs
          exact h.move hdevice hjobs (hjob ▸ hp.done _) rfl (.failed _)
        · rw [hread] at hjobs
          exact h.move hdevice hjobs (hjob ▸ hp.done _) rfl
            (.writing hw .start)
    | writing hw hp =>
      rcases Race.step_of_inExchange hjob hp hs with
        ⟨p', hp', hdevice, hjobs⟩ | ⟨hnext, tns, hdevice, hjobs⟩
      · exact h.move hdevice hjobs (hjob ▸ hp.done _) (hp'.done _) (.writing hw hp')
      · obtain ⟨dt', hdt⟩ := DataTable.exists_write hw (maskBit _ (W.addr i).bitNum (W.on i))
        obtain ⟨hnew, hend⟩ := afterWrite_execute (ε := ε) (W.valid i) hdt tns
        rw [hend] at hjobs
        rw [hnew] at hdevice
        refine h.writeBack ?_ hjobs (hjob ▸ hp.done _) (hapart ?_)
        · rw [hdevice]
          exact bitWritten_of_write (W.valid i) (W.isBit i) hw hdt
        · rw [hjob]
          exact hnext
    | failed e =>
      rw [Race.step, hjob] at hs
      cases hs
    | done =>
      rw [Race.step, hjob] at hs
      cases hs

/-- **Bit writes to distinct bits of one word are not lost** in a run in which no word is written
back while another write is between its exchanges. -/
theorem bitsKept_of_writesApart (W : BitWrites ι) (l : Link DataTable) {s : Race ε ι}
    (h : (raceSystem W l).Reachable WritesApart s) (hdone : ∀ i, (s.jobs i).done = true) :
    BitsKept W Set.univ l.device s.link.device := by
  have hinv : RaceInv W l.device s :=
    h.invariant (RaceInv.init W l) fun _ _ _ hi hapart hs => hi.step hapart hs
  have hall : {i | (s.jobs i).done = true} = Set.univ := Set.eq_univ_of_forall hdone
  rw [← hall]
  exact hinv.kept

end System

/-! ### Two writers -/

/-- Writers that set the bits 0 and 1 of `N7:0`. -/
def twoWriters : BitWrites (Fin 2) where
  addr i := ⟨.integer, 7, 0, 0, i.val⟩
  on _ := true
  word := ⟨.integer, 7, 0, 0, -1⟩
  valid i := by
    have hi : ((i.val : ℕ) : ℤ) ≤ 15 := by omega
    have hseven : 0 ≤ (7 : ℤ) ∧ (7 : ℤ) ≤ 255 := by decide
    have hzero : 0 ≤ (0 : ℤ) ∧ (0 : ℤ) ≤ 255 := by decide
    exact ⟨hseven, hzero, .bit (.inl rfl) (Int.natCast_nonneg _) hi⟩
  isBit i := Int.natCast_nonneg _
  sameWord _ := rfl
  distinct _ _ h := Fin.ext (Int.ofNat_inj.mp h)

/-- A controller with the one word `N7:0`, which is 0. -/
def integerTable : DataTable := Function.update (fun _ => none) 7 (some ⟨.integer, [0]⟩)

/-- Whether both writers have ended well, and the word. -/
def raceOutcome (s : Race Empty (Fin 2)) : Bool × Bool × Option UInt16 :=
  ((s.jobs 0).done, (s.jobs 1).done, s.link.device.word 7 0)

/-- One writer after the other. -/
theorem bitsKept_twoWriters : ∃ s : Race Empty (Fin 2),
    (raceSystem twoWriters ⟨1, integerTable⟩).Reachable WritesApart s ∧
      BitsKept twoWriters Set.univ integerTable s.link.device := by
  obtain ⟨s, hs, hout⟩ := TransitionSystem.exists_reachable_of_exec
    (M := raceSystem twoWriters ⟨1, integerTable⟩) (G := WritesApart) (f := raceOutcome)
    (b := (true, true, some 3)) [0, 0, 0, 0, 1, 1, 1, 1] (by decide +kernel)
  obtain ⟨h₀, h₁, -⟩ : _ ∧ _ ∧ _ := by simpa [raceOutcome] using hout
  refine ⟨s, hs, bitsKept_of_writesApart twoWriters ⟨1, integerTable⟩ hs fun i => ?_⟩
  match i with
  | 0 => exact h₀
  | 1 => exact h₁

/-- Both writers read the word before either writes it back; both end well, and bit 0 is lost. -/
theorem not_bitsKept_twoWriters : ∃ s : Race Empty (Fin 2),
    (raceSystem twoWriters ⟨1, integerTable⟩).Reachable (fun _ _ => True) s ∧
      (∀ i, (s.jobs i).done = true) ∧
      ¬BitsKept twoWriters Set.univ integerTable s.link.device := by
  obtain ⟨s, hs, hout⟩ := TransitionSystem.exists_reachable_of_exec
    (M := raceSystem twoWriters ⟨1, integerTable⟩) (G := fun _ _ => True) (f := raceOutcome)
    (b := (true, true, some 2)) [0, 0, 1, 1, 0, 0, 1, 1] (by decide +kernel)
  obtain ⟨h₀, h₁, hword⟩ : _ ∧ _ ∧ _ := by simpa [raceOutcome] using hout
  refine ⟨s, hs, fun i => ?_, fun hkept => ?_⟩
  · match i with
    | 0 => exact h₀
    | 1 => exact h₁
  · have hbit := hkept.written 0 trivial
    change (s.link.device.word 7 0).map (wordBit · 0) = some true at hbit
    rw [hword] at hbit
    revert hbit
    decide

end GoIndustrial.Pccc
