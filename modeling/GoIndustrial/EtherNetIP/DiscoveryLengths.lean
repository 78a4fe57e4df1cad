import GoIndustrial.EtherNetIP.Discovery

/-!
# Discovery replies and the lengths of their items

The decoders of `ListIdentity` and `ListServices` replies read the fields that they know one after
the other, and do not use the length of an item to find the next one. A reply in which an item has
further bytes behind these fields is misread, unless it is the last item; and the decoder of
services takes items of every type for services.

Whether further bytes do harm can depend on their values, as they may happen to look like the items
that follow. So replies are compared that differ in their further bytes only, where an item has some
in one of them if it has some in the other.

## Main definitions

* `EtherNetIP.ItemKind`, `EtherNetIP.Entry` : items with further bytes, and items of other types.
* `EtherNetIP.reply` : the reply with the entries.
* `EtherNetIP.SameOutline` : replies that differ in their further bytes only.

## Main results

* `EtherNetIP.received_iff` : the entries that a loop receives, whatever their further bytes are.
* `EtherNetIP.discovery_right_iff` : the replies that are decoded by their lengths.
-/

namespace GoIndustrial.EtherNetIP

open LittleEndian ByteReader

/-! ### Replies with further bytes -/

/-- A kind of item: its type, the length of the fields that the decoder knows, and what they are on
the wire and when they are received, with the length that the item declares. -/
structure ItemKind (φ α : Type) where
  typeID : UInt16
  size : φ → ℕ
  bytes : φ → UInt16 → List UInt8
  received : φ → UInt16 → α

section
variable {φ α : Type} {k : ItemKind φ α}

/-- An item of the kind, with further bytes behind its fields. -/
structure ItemRecord (k : ItemKind φ α) where
  fields : φ
  further : List UInt8
  length_le : k.size fields + further.length ≤ 65535

/-- An item of another type. -/
structure UnknownItem (known : UInt16) where
  typeID : UInt16
  data : List UInt8
  type_ne : typeID ≠ known
  length_le : data.length ≤ 65535

/-- An entry of a reply. -/
inductive Entry (k : ItemKind φ α)
  | known (r : ItemRecord k)
  | unknown (u : UnknownItem k.typeID)

/-- The length that an item declares covers its further bytes. -/
def ItemRecord.length (r : ItemRecord k) : UInt16 :=
  UInt16.ofNat (k.size r.fields + r.further.length)

namespace Entry

/-- An entry without its further bytes. -/
def bytes : Entry k → List UInt8
  | .known r => k.bytes r.fields r.length
  | .unknown u => putUint16 u.typeID ++ (putUint16 (UInt16.ofNat u.data.length) ++ u.data)

def further : Entry k → List UInt8
  | .known r => r.further
  | .unknown _ => []

/-- What is to be received of an entry. -/
def received : Entry k → Option α
  | .known r => some (k.received r.fields r.length)
  | .unknown _ => none

/-- All of an entry but its further bytes, of which only whether there are any. -/
def outline : Entry k → (φ × Bool) ⊕ UnknownItem k.typeID
  | .known r => .inl (r.fields, r.further.isEmpty)
  | .unknown u => .inr u

end Entry

/-- A count, and the entries with their further bytes. -/
def reply (entries : List (Entry k)) : List UInt8 :=
  putUint16 (UInt16.ofNat entries.length) ++ entries.flatMap fun e => e.bytes ++ e.further

/-- Two replies differ at most in their further bytes, in their number too, and the same items have
some. -/
def SameOutline (entries entries' : List (Entry k)) : Prop :=
  entries.map Entry.outline = entries'.map Entry.outline

/-- No entry but the last has further bytes. -/
def NoFurther (entries : List (Entry k)) : Prop := ∀ e ∈ entries.dropLast, e.further = []

theorem Entry.further_eq_nil_of_outline {e e' : Entry k} (h : e.outline = e'.outline)
    (hfurther : e.further = []) : e'.further = [] := by
  match e, e', h with
  | .known r, .known r', h =>
    have hempty : r.further.isEmpty = r'.further.isEmpty :=
      (Prod.mk.inj (Sum.inl.inj h)).2
    exact List.isEmpty_iff.mp (hempty ▸ List.isEmpty_iff.mpr hfurther)
  | .unknown _, .unknown _, _ => rfl

theorem SameOutline.length_eq {entries entries' : List (Entry k)}
    (h : SameOutline entries entries') : entries'.length = entries.length := by
  have hlen := congrArg List.length h
  rw [List.length_map, List.length_map] at hlen
  exact hlen.symm

theorem SameOutline.noFurther {entries entries' : List (Entry k)}
    (h : SameOutline entries entries') (hnone : NoFurther entries) : NoFurther entries' := by
  intro e' he'
  have hmem : e'.outline ∈ entries.dropLast.map Entry.outline := by
    rw [List.map_dropLast, h, ← List.map_dropLast]
    exact List.mem_map_of_mem he'
  obtain ⟨e, he, heq⟩ := List.mem_map.mp hmem
  exact Entry.further_eq_nil_of_outline heq (hnone e he)

/-- The first entry with further bytes, if it is not the last entry. -/
theorem exists_first_further {entries : List (Entry k)} (h : ¬ NoFurther entries) :
    ∃ pre r post, entries = pre ++ .known r :: post ∧ post ≠ [] ∧ r.further ≠ [] ∧
      ∀ e ∈ pre, e.further = [] := by
  induction entries with
  | nil => exact absurd nofun h
  | cons e entries ih =>
    match entries, ih with
    | [], _ => exact absurd nofun h
    | e' :: entries, ih =>
      by_cases hfurther : e.further = []
      · have hrest : ¬ NoFurther (e' :: entries) := fun hrest =>
          h (List.forall_mem_cons.mpr ⟨hfurther, hrest⟩)
        obtain ⟨pre, r, post, heq, hpost, hr, hpre⟩ := ih hrest
        exact ⟨e :: pre, r, post, by rw [heq]; rfl, hpost, hr,
          List.forall_mem_cons.mpr ⟨hfurther, hpre⟩⟩
      · match e, hfurther with
        | .known r, hfurther => exact ⟨[], r, _, rfl, List.cons_ne_nil _ _, hfurther, nofun⟩
        | .unknown _, hfurther => exact absurd rfl hfurther

/-! ### Decoding a reply -/

/-- A loop that hands on what it makes of each entry, if anything. -/
def readEntries (p : Reader (Option α)) (n : ℕ) : Reader (List α) := do
  let items ← readMany p n
  return items.reduceOption

theorem decode_readEntries_eq_ok {p : Reader (Option α)} {n : ℕ} {bs : List UInt8} {as : List α} :
    decode (readEntries p n) bs = .ok as ↔
      ∃ vs rest, readMany p n bs = .ok (vs, rest) ∧ vs.reduceOption = as := by
  simp only [decode_eq_ok, readEntries, bind_eq_ok, pure_eq_ok]
  constructor
  · rintro ⟨rest, vs, mid, hread, rfl, rfl⟩
    exact ⟨vs, mid, hread, rfl⟩
  · rintro ⟨vs, rest, hread, rfl⟩
    exact ⟨rest, vs, rest, hread, rfl, rfl⟩

/-- The entries of the kind are received, in order and with their fields. -/
def Received (p : Reader (Option α)) (entries : List (Entry k)) : Prop :=
  decode (readEntries p entries.length) (entries.flatMap fun e => e.bytes ++ e.further) =
    .ok (entries.map Entry.received).reduceOption

variable {p : Reader (Option α)} {entries : List (Entry k)}

theorem received_of_noFurther (hread : ∀ e ∈ entries, Consumes p e.bytes e.received)
    (h : NoFurther entries) : Received p entries := by
  obtain ⟨rest, hmany⟩ := readMany_of_further hread h
  exact decode_readEntries_eq_ok.mpr ⟨_, rest, hmany, rfl⟩

/-- Further bytes that look like an item are received as one, if the entry is not the last. -/
theorem not_received_of_further {pre post : List (Entry k)} {r : ItemRecord k} {y : φ}
    (hread : ∀ e ∈ pre ++ [.known r], Consumes p e.bytes e.received)
    (hpre : ∀ e ∈ pre, e.further = []) (hpost : post ≠ []) (hr : r.further = k.bytes y 0)
    (hy : Consumes p (k.bytes y 0) (some (k.received y 0)))
    (hne : (post.map Entry.received).reduceOption.head? ≠ some (k.received y 0)) :
    ¬ Received p (pre ++ .known r :: post) := by
  intro h
  obtain ⟨vs, rest, hmany, hvs⟩ := decode_readEntries_eq_ok.mp h
  obtain ⟨ws, rfl⟩ := readMany_further_read hread hpre hpost hy hr hmany
  simp only [Entry.received, List.map_append, List.map_cons, List.reduceOption_append,
    List.reduceOption_cons_of_some, List.append_cancel_left_eq, List.cons.injEq, true_and] at hvs
  exact hne (by rw [← hvs, List.head?_cons])

/-- **Replies that are received whatever their further bytes are**: those in which no entry but the
last has any. For any item there is another one that is received differently and fits into the
further bytes. -/
theorem received_iff
    (hknown : ∀ y length, Consumes p (k.bytes y length) (some (k.received y length)))
    (hread : ∀ e ∈ entries, Consumes p e.bytes e.received)
    (hspoil : ∀ a : Option α, ∃ y, a ≠ some (k.received y 0) ∧ k.bytes y 0 ≠ [] ∧
      ∀ x, k.size x + (k.bytes y 0).length ≤ 65535) :
    (∀ entries', SameOutline entries entries' → Received p entries') ↔ NoFurther entries := by
  constructor
  · intro h
    by_contra hfurther
    obtain ⟨pre, r, post, rfl, hpost, hr, hpre⟩ := exists_first_further hfurther
    obtain ⟨y, hne, hbytes, hsize⟩ := hspoil (post.map Entry.received).reduceOption.head?
    refine not_received_of_further (r := ⟨r.fields, k.bytes y 0, hsize r.fields⟩) ?_ hpre hpost rfl
      (hknown y 0) hne (h _ ?_)
    · intro e he
      rcases List.mem_append.mp he with he | he
      · exact hread e (List.mem_append_left _ he)
      · rw [List.mem_singleton.mp he]
        exact hknown _ _
    · have hr' : r.further.isEmpty = (k.bytes y 0).isEmpty := by
        rw [List.isEmpty_eq_false_iff.mpr hr, List.isEmpty_eq_false_iff.mpr hbytes]
      simp only [SameOutline, List.map_append, List.map_cons, Entry.outline, hr']
  · intro h entries' hsame
    refine received_of_noFurther (fun e' he' => ?_) (hsame.noFurther h)
    match e', he' with
    | .known r, _ => exact hknown _ _
    | .unknown u, he' =>
      have hmem : (Entry.unknown u).outline ∈ entries.map Entry.outline := by
        rw [hsame]
        exact List.mem_map_of_mem he'
      obtain ⟨e, he, houtline⟩ := List.mem_map.mp hmem
      match e, he, houtline with
      | .unknown u', he, houtline =>
        obtain rfl := Sum.inr.inj houtline
        exact hread _ he

end

/-! ### Identities -/

/-- The fields of an identity item, with a name whose length fits into its byte. -/
def IdentityFields : Type :=
  { item : ListIdentityItem //
    item.typeID = itemIDListIdentity ∧ item.productName.length ≤ 255 }

def identityKind : ItemKind IdentityFields ReceivedIdentity where
  typeID := itemIDListIdentity
  size item := 34 + item.1.productName.length
  bytes item length := identityBytes item.1 length
  received item length := ⟨item.1, length⟩

/-- Identity items are read, and the others are skipped. -/
theorem consumes_identityEntry (e : Entry identityKind) :
    Consumes readIdentityItem e.bytes e.received := by
  match e with
  | .known r => exact consumes_identityBytes r.fields.2.1 r.fields.2.2 _
  | .unknown u =>
    have hlen : (UInt16.ofNat u.data.length).toNat = u.data.length := by
      have hle := u.length_le
      rw [UInt16.toNat_ofNat']
      omega
    have hfull := consumes_readFull u.data
    rw [← hlen] at hfull
    have hne : u.typeID ≠ itemIDListIdentity := u.type_ne
    refine (consumes_uint16 _).bind <| (consumes_uint16 _).bind ?_
    rw [if_neg hne]
    exact hfull.map fun _ => none

/-- An identity with the state. -/
def sampleIdentity (state : UInt8) : IdentityFields :=
  ⟨⟨itemIDListIdentity, 1, Vector.replicate 16 0, 0, 0, 0, Vector.replicate 2 0, 0, 0, [], state⟩,
    rfl, Nat.zero_le _⟩

theorem length_sampleIdentity (state : UInt8) :
    (identityKind.bytes (sampleIdentity state) 0).length = 38 :=
  length_identityBytes _ _

/-- Some identity is not the one that is given. -/
theorem exists_other_identity (a : Option ReceivedIdentity) :
    ∃ y, a ≠ some (identityKind.received y 0) ∧ identityKind.bytes y 0 ≠ [] ∧
      ∀ x, identityKind.size x + (identityKind.bytes y 0).length ≤ 65535 := by
  have hfits (state : UInt8) : identityKind.bytes (sampleIdentity state) 0 ≠ [] ∧
      ∀ x, identityKind.size x + (identityKind.bytes (sampleIdentity state) 0).length ≤ 65535 := by
    refine ⟨List.ne_nil_of_length_pos (by rw [length_sampleIdentity]; decide), fun x => ?_⟩
    have hname := x.2.2
    rw [length_sampleIdentity]
    change 34 + x.1.productName.length + 38 ≤ 65535
    omega
  by_cases ha : a = some (identityKind.received (sampleIdentity 0) 0)
  · refine ⟨sampleIdentity 1, ?_, hfits 1⟩
    rw [ha]
    decide
  · exact ⟨sampleIdentity 0, ha, hfits 0⟩

/-- The reply to ListIdentity is decoded to its identity items. -/
def IdentityRight (entries : List (Entry identityKind)) : Prop :=
  decodeListIdentityResponse (reply entries) = .ok (entries.map Entry.received).reduceOption

theorem identityRight_iff {entries : List (Entry identityKind)} (h : entries.length ≤ 65535) :
    IdentityRight entries ↔ Received readIdentityItem entries := by
  rw [IdentityRight, reply, decodeListIdentityResponse_count h]
  rfl

/-! ### Services -/

structure ServiceFields where
  version : UInt16
  capabilityFlags : UInt16
  name : Vector UInt8 16

def serviceKind : ItemKind ServiceFields ReceivedService where
  typeID := itemIDListServices
  size _ := 20
  bytes s length := serviceBytes itemIDListServices length s.version s.capabilityFlags s.name
  received s length := receivedService itemIDListServices length s.version s.capabilityFlags s.name

/-- The reply to ListServices is decoded to its service items. -/
def ServicesRight (entries : List (Entry serviceKind)) : Prop :=
  decodeListServicesResponse (reply entries) = .ok (entries.map Entry.received).reduceOption

/-- The loop over services, every item of which is handed on. -/
theorem readMany_map_some {α : Type} (p : Reader α) (n : ℕ) :
    readMany (do return some (← p)) n = do return (← readMany p n).map some := by
  induction n with
  | zero => rfl
  | succ n ih => simp only [readMany, ih, bind_assoc, pure_bind, List.map_cons]

theorem readEntries_map_some {α : Type} (p : Reader α) (n : ℕ) :
    readEntries (do return some (← p)) n = readMany p n := by
  have hsome (as : List α) : (as.map some).reduceOption = as := by
    rw [List.reduceOption, List.filterMap_map]
    exact List.filterMap_some
  simp only [readEntries, readMany_map_some, bind_assoc, pure_bind, hsome, bind_pure]

theorem servicesRight_iff {entries : List (Entry serviceKind)} (h : entries.length ≤ 65535) :
    ServicesRight entries ↔ Received (do return some (← decodeListServicesItem)) entries := by
  rw [ServicesRight, reply, decodeListServicesResponse_count h, Received, readEntries_map_some]

theorem consumes_serviceFields (s : ServiceFields) (length : UInt16) :
    Consumes (do return some (← decodeListServicesItem)) (serviceKind.bytes s length)
      (some (serviceKind.received s length)) :=
  (consumes_serviceBytes _ _ _ _ _).map some

/-- As many services are received as there are items, so that each of them has to be one. -/
theorem forall_known_of_servicesRight {entries : List (Entry serviceKind)}
    (hcount : entries.length ≤ 65535) (h : ServicesRight entries) :
    ∀ e ∈ entries, ∃ r, e = .known r := by
  rw [ServicesRight, reply, decodeListServicesResponse_count hcount] at h
  obtain ⟨rest, hread⟩ := decode_eq_ok.mp h
  have hlen := length_of_readMany hread
  intro e he
  match e, he with
  | .known r, _ => exact ⟨r, rfl⟩
  | .unknown u, he =>
    have hnone : none ∈ entries.map Entry.received :=
      List.mem_map.mpr ⟨.unknown u, he, rfl⟩
    have hlt := List.reduceOption_length_lt_iff.mpr hnone
    rw [List.length_map] at hlt
    omega

/-- A service with the version. -/
def sampleService (version : UInt16) : ServiceFields := ⟨version, 0, Vector.replicate 16 0⟩

theorem length_sampleService (version : UInt16) :
    (serviceKind.bytes (sampleService version) 0).length = 24 := rfl

/-- Some service is not the one that is given. -/
theorem exists_other_service (a : Option ReceivedService) :
    ∃ y, a ≠ some (serviceKind.received y 0) ∧ serviceKind.bytes y 0 ≠ [] ∧
      ∀ x, serviceKind.size x + (serviceKind.bytes y 0).length ≤ 65535 := by
  have hfits (version : UInt16) : serviceKind.bytes (sampleService version) 0 ≠ [] ∧
      ∀ x, serviceKind.size x + (serviceKind.bytes (sampleService version) 0).length ≤ 65535 := by
    refine ⟨List.ne_nil_of_length_pos (by rw [length_sampleService]; decide), fun x => ?_⟩
    rw [length_sampleService]
    change 20 + 24 ≤ 65535
    decide
  by_cases ha : a = some (serviceKind.received (sampleService 0) 0)
  · refine ⟨sampleService 1, ?_, hfits 1⟩
    rw [ha]
    decide
  · exact ⟨sampleService 0, ha, hfits 0⟩

/-! ### Both -/

/-- **The replies that are decoded by their lengths**, whatever the further bytes of their items
are: replies to ListIdentity in which no item but the last has further bytes, and replies to
ListServices in which, besides, all items are services. -/
theorem discovery_right_iff (identities : List (Entry identityKind))
    (services : List (Entry serviceKind)) (hidentities : identities.length ≤ 65535)
    (hservices : services.length ≤ 65535) :
    ((∀ entries, SameOutline identities entries → IdentityRight entries) ↔
      NoFurther identities) ∧
    ((∀ entries, SameOutline services entries → ServicesRight entries) ↔
      (∀ e ∈ services, ∃ r, e = .known r) ∧ NoFurther services) := by
  constructor
  · rw [← received_iff (fun y => consumes_identityBytes y.2.1 y.2.2)
      (fun e _ => consumes_identityEntry e) exists_other_identity]
    refine forall₂_congr fun entries hsame => identityRight_iff ?_
    rw [hsame.length_eq]
    exact hidentities
  · have hiff {entries : List (Entry serviceKind)} (hsame : SameOutline services entries) :
        ServicesRight entries ↔ Received (do return some (← decodeListServicesItem)) entries :=
      servicesRight_iff (by rw [hsame.length_eq]; exact hservices)
    constructor
    · intro h
      have hknown := forall_known_of_servicesRight hservices (h services rfl)
      refine ⟨hknown, (received_iff consumes_serviceFields (fun e he => ?_)
        exists_other_service).mp fun entries hsame => (hiff hsame).mp (h entries hsame)⟩
      obtain ⟨r, rfl⟩ := hknown e he
      exact consumes_serviceFields _ _
    · rintro ⟨hknown, hfurther⟩ entries hsame
      refine (hiff hsame).mpr ((received_iff consumes_serviceFields (fun e he => ?_)
        exists_other_service).mpr hfurther entries hsame)
      obtain ⟨r, rfl⟩ := hknown e he
      exact consumes_serviceFields _ _

/-- An identity without a name, and with some further bytes. -/
def identityEntry (state : UInt8) (further : List UInt8)
    (h : 34 + further.length ≤ 65535) : Entry identityKind :=
  .known ⟨sampleIdentity state, further, h⟩

def serviceEntry (version : UInt16) (further : List UInt8) (h : 20 + further.length ≤ 65535) :
    Entry serviceKind :=
  .known ⟨sampleService version, further, h⟩

theorem discovery_right_plain :
    IdentityRight [identityEntry 0 [] (by decide), identityEntry 1 [7] (by decide)] ∧
      ServicesRight [serviceEntry 1 [] (by decide), serviceEntry 2 [7] (by decide)] := by
  have h := discovery_right_iff [identityEntry 0 [] (by decide), identityEntry 1 [7] (by decide)]
    [serviceEntry 1 [] (by decide), serviceEntry 2 [7] (by decide)] (by decide) (by decide)
  refine ⟨h.1.mpr ?_ _ rfl, h.2.mpr ⟨?_, ?_⟩ _ rfl⟩
  · exact List.forall_mem_cons.mpr ⟨rfl, nofun⟩
  · exact List.forall_mem_cons.mpr ⟨⟨_, rfl⟩, List.forall_mem_cons.mpr ⟨⟨_, rfl⟩, nofun⟩⟩
  · exact List.forall_mem_cons.mpr ⟨rfl, nofun⟩

/-- One further byte in the first of two identities, and an item that is not a service. -/
theorem discovery_not_right :
    ¬ IdentityRight [identityEntry 0 [7] (by decide), identityEntry 1 [] (by decide)] ∧
      ¬ ServicesRight [.unknown ⟨0x0001, List.replicate 20 0, by decide, by decide⟩] := by
  unfold IdentityRight ServicesRight
  constructor
  · decide +kernel
  · decide +kernel

end GoIndustrial.EtherNetIP
