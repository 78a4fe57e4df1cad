import GoIndustrial.Monitor.Channels

/-!
# Delivery of events

Every event that `emit` is called with has a number. The events that one goroutine emits go round
the subscribers one after the other, so that the channel of a subscriber has the events of a
subscription in their order, and those are missing that found its buffer full.

While a subscriber is in the map it is among those that an event goes round to: from the moment it
was put in, every event is on its way, has been broadcast to it, or was skipped.

## Main definitions

* `Monitor.Delivery` : what has been delivered, and what has become of all other events.
* `Monitor.Heard` : the events since a moment, for one subscriber.

## Main results

* `Monitor.Delivery.busMove`, `Monitor.Delivery.closeMove`.
* `Monitor.Heard.busMove`, `Monitor.Heard.closeMove`.
-/

namespace GoIndustrial.Monitor

/-! ### Delivery -/

section Delivery

variable {E : Type}

/-- Everything that was sent to a subscriber. -/
def Bus.sentTo (b : Bus E) (j : ℕ) : List (Item E) := (b.all j).elim [] fun sub => sub.ch.sent

/-- What a subscriber has missed. -/
def Bus.droppedBy (b : Bus E) (j : ℕ) : List (Item E × List (Item E)) :=
  (b.all j).elim [] Subscriber.dropped

/-- The events of one subscription. -/
def ofSub (i : ℕ) (l : List (Item E)) : List (Item E) := l.filter fun x => x.sub = i

/-- An event has been sent to a subscriber, or has found its buffer full. -/
def Bus.Fate (b : Bus E) (j : ℕ) (x : Item E) : Prop :=
  x ∈ b.sentTo j ∨ ∃ buf, (x, buf) ∈ b.droppedBy j

/-- The event has not come to the subscriber yet. -/
def Emission.Pending (j : ℕ) : Emission E → Prop
  | .check _ | .rlock _ => True
  | .sending _ todo _ => j ∈ todo
  | .last _ => False

/-- What has become of the event of a call of `emit` so far. -/
def Emission.Served (b : Bus E) : Emission E → Prop
  | .sending x todo audience => ∀ j ∈ audience, j ∉ todo → b.Fate j x
  | .last x => ∃ audience, (x, audience) ∈ b.broadcasts
  | .check _ | .rlock _ => True

/-- What the subscribers have got, and what has become of all other events. -/
structure Delivery (b : Bus E) : Prop where
  numbers : b.emitted.map Item.n = List.range b.emitted.length
  sent : ∀ j i, (ofSub i (b.sentTo j)).Sublist (ofSub i b.emitted)
  current : ∀ i em, b.emission i = some em → ∃ l, ofSub i b.emitted = l ++ [em.item] ∧
    ∀ j, em.Pending j → (ofSub i (b.sentTo j)).Sublist l
  served : ∀ i em, b.emission i = some em → em.Served b
  broadcast : ∀ x audience, (x, audience) ∈ b.broadcasts → ∀ j ∈ audience, b.Fate j x
  fates : ∀ x ∈ b.emitted, (∃ em, b.emission x.sub = some em ∧ em.item = x) ∨
    (∃ audience, (x, audience) ∈ b.broadcasts) ∨ x ∈ b.skipped

variable {b b' : Bus E} {i j k : ℕ} {sub sub' : Subscriber E} {x : Item E}

theorem sentTo_put : (b.put j sub).sentTo k = if k = j then sub.ch.sent else b.sentTo k := by
  rcases eq_or_ne k j with rfl | hne
  · simp [Bus.sentTo, Bus.put]
  · simp [Bus.sentTo, Bus.put, hne]

theorem droppedBy_put :
    (b.put j sub).droppedBy k = if k = j then sub.dropped else b.droppedBy k := by
  rcases eq_or_ne k j with rfl | hne
  · simp [Bus.droppedBy, Bus.put]
  · simp [Bus.droppedBy, Bus.put, hne]

theorem sentTo_of_all (hj : b.all j = some sub) : b.sentTo j = sub.ch.sent := by
  rw [Bus.sentTo, hj]
  rfl

theorem droppedBy_of_all (hj : b.all j = some sub) : b.droppedBy j = sub.dropped := by
  rw [Bus.droppedBy, hj]
  rfl

/-- What matters of the bus for the delivery. -/
theorem Delivery.congr (h : Delivery b) (hsent : b'.sentTo = b.sentTo)
    (hdropped : b'.droppedBy = b.droppedBy) (hem : b'.emission = b.emission)
    (hemitted : b'.emitted = b.emitted) (hbroadcasts : b'.broadcasts = b.broadcasts)
    (hskipped : b'.skipped = b.skipped) : Delivery b' := by
  have hfate : b'.Fate = b.Fate := by
    funext j x
    rw [Bus.Fate, Bus.Fate, hsent, hdropped]
  have hserved : ∀ em : Emission E, em.Served b' ↔ em.Served b := by
    intro em
    cases em <;> simp only [Emission.Served, hfate, hbroadcasts]
  refine ⟨?_, ?_, ?_, fun i em hi => ?_, ?_, ?_⟩
  · rw [hemitted]
    exact h.numbers
  · rw [hsent, hemitted]
    exact h.sent
  · rw [hem, hemitted, hsent]
    exact h.current
  · rw [hem] at hi
    exact (hserved em).mpr (h.served i em hi)
  · rw [hbroadcasts, hfate]
    exact h.broadcast
  · rw [hemitted, hem, hbroadcasts, hskipped]
    exact h.fates

/-- A subscriber changes, but not what was sent to it. -/
theorem Delivery.put (h : Delivery b) (hj : b.all j = some sub) (sub' : Subscriber E)
    (hsent : sub'.ch.sent = sub.ch.sent) (hdropped : sub'.dropped = sub.dropped) :
    Delivery (b.put j sub') := by
  refine h.congr ?_ ?_ rfl rfl rfl rfl
  · funext k
    rw [sentTo_put]
    split
    case isTrue hk => rw [hk, sentTo_of_all hj, hsent]
    case isFalse => rfl
  · funext k
    rw [droppedBy_put]
    split
    case isTrue hk => rw [hk, droppedBy_of_all hj, hdropped]
    case isFalse => rfl

theorem ofSub_append (l l' : List (Item E)) : ofSub i (l ++ l') = ofSub i l ++ ofSub i l' :=
  List.filter_append ..

theorem ofSub_singleton (hx : x.sub = i) : ofSub i [x] = [x] := by simp [ofSub, hx]

theorem ofSub_singleton_of_ne (hx : x.sub ≠ i) : ofSub i [x] = [] := by simp [ofSub, hx]

theorem Delivery.sub_item (h : Delivery b) {em : Emission E} (hi : b.emission i = some em) :
    em.item.sub = i := by
  obtain ⟨l, hl, -⟩ := h.current i em hi
  have hmem : em.item ∈ ofSub i b.emitted := by
    rw [hl]
    exact List.mem_append_right _ List.mem_cons_self
  exact of_decide_eq_true (List.mem_filter.mp hmem).2

/-- `emit` is called. -/
theorem Delivery.poll (h : Delivery b) (hi : b.emission i = none) (event : E) :
    Delivery { b.setEmission i (some (.check ⟨b.emitted.length, i, event⟩)) with
      emitted := b.emitted ++ [⟨b.emitted.length, i, event⟩] } := by
  refine ⟨?_, fun j k => ?_, ?_, ?_, h.broadcast, fun x hx => ?_⟩
  · rw [List.map_append, h.numbers, List.length_append]
    exact List.range_succ.symm
  · rw [ofSub_append]
    exact (h.sent j k).trans (List.sublist_append_left _ _)
  · intro k em hk
    rcases Table.update_some_eq_some.mp hk with ⟨rfl, rfl⟩ | ⟨hne, hk⟩
    · refine ⟨ofSub k b.emitted, ?_, fun j _ => h.sent j k⟩
      rw [ofSub_append]
      exact congrArg _ (ofSub_singleton rfl)
    · obtain ⟨l, hl, hpending⟩ := h.current k em hk
      refine ⟨l, ?_, hpending⟩
      rw [ofSub_append, ofSub_singleton_of_ne (Ne.symm hne), List.append_nil, hl]
  · refine Table.forall_update_some (fun k em hk => ?_) trivial
    have hserved := h.served k em hk
    cases em <;> exact hserved
  · rcases List.mem_append.mp hx with hx | hx
    · rcases h.fates x hx with ⟨em, hem, hitem⟩ | hrest
      · have hne : x.sub ≠ i := by
          intro heq
          rw [heq, hi] at hem
          contradiction
        exact .inl ⟨em, (Function.update_of_ne hne _ _).trans hem, hitem⟩
      · exact .inr hrest
    · obtain rfl := List.mem_singleton.mp hx
      exact .inl ⟨_, Function.update_self _ _ _, rfl⟩

variable {em : Emission E}

/-- A goroutine goes on in `emit`. -/
theorem Delivery.goOn (h : Delivery b) (hi : b.emission i = some em) (em' : Emission E)
    (hitem : em'.item = em.item) (hpending : ∀ j, em'.Pending j → em.Pending j)
    (hserved : em'.Served b) : Delivery (b.setEmission i (some em')) := by
  refine ⟨h.numbers, h.sent, ?_, ?_, h.broadcast, fun x hx => ?_⟩
  · refine Table.forall_update_some h.current ?_
    obtain ⟨l, hl, hold⟩ := h.current i em hi
    exact ⟨l, hitem ▸ hl, fun j hj => hold j (hpending j hj)⟩
  · refine Table.forall_update_some (fun k em₁ hk => ?_) ?_
    · have hold := h.served k em₁ hk
      cases em₁ <;> exact hold
    · cases em' <;> exact hserved
  · rcases h.fates x hx with hcur | hrest
    · exact .inl (Table.exists_update_some hi (fun hx => hitem.trans hx) hcur)
    · exact .inr hrest

/-- A goroutine returns from `emit`. -/
theorem Delivery.leave (h : Delivery b) (hi : b.emission i = some em)
    (hfate : (∃ audience, (em.item, audience) ∈ b.broadcasts) ∨ em.item ∈ b.skipped) :
    Delivery (b.setEmission i none) := by
  refine ⟨h.numbers, h.sent, Table.forall_update_none h.current, ?_, h.broadcast, fun x hx => ?_⟩
  · refine Table.forall_update_none fun k em₁ hk => ?_
    have hold := h.served k em₁ hk
    cases em₁ <;> exact hold
  · rcases h.fates x hx with ⟨em₁, hem₁, rfl⟩ | hrest
    · rcases eq_or_ne em₁.item.sub i with heq | hne
      · rw [heq, hi] at hem₁
        obtain rfl := Option.some.inj hem₁
        exact .inr hfate
      · exact .inl ⟨em₁, (Function.update_of_ne hne _ _).trans hem₁, rfl⟩
    · exact .inr hrest

/-- An event has gone round, or has been skipped. -/
theorem Delivery.record (h : Delivery b) (done : List (Item E × List ℕ)) (skipped : List (Item E))
    (hdone : ∀ x audience, (x, audience) ∈ done → ∀ j ∈ audience, b.Fate j x) :
    Delivery { b with
      broadcasts := b.broadcasts ++ done
      skipped := b.skipped ++ skipped } := by
  refine ⟨h.numbers, h.sent, h.current, fun k em hk => ?_, fun x audience hx => ?_, fun x hx => ?_⟩
  · have hold := h.served k em hk
    cases em with
    | last x =>
      obtain ⟨audience, hmem⟩ := hold
      exact ⟨audience, List.mem_append_left _ hmem⟩
    | check | rlock | sending => exact hold
  · rcases List.mem_append.mp hx with hx | hx
    · exact h.broadcast x audience hx
    · exact hdone x audience hx
  · rcases h.fates x hx with hcur | ⟨audience, hmem⟩ | hskip
    · exact .inl hcur
    · exact .inr (.inl ⟨audience, List.mem_append_left _ hmem⟩)
    · exact .inr (.inr (List.mem_append_left _ hskip))

/-- What an offer adds to what was sent. -/
theorem Offered.sent_eq (ho : Offered sub x sub') :
    sub'.ch.sent = sub.ch.sent ∨ sub'.ch.sent = sub.ch.sent ++ [x] := by
  cases ho with
  | sent => exact .inr (List.append_assoc ..).symm
  | dropped => exact .inl rfl

/-- Only the subscriber gets the event, and it counts only for the subscription it comes from. -/
theorem Offered.ofSub_sentTo (ho : Offered sub x sub') (hj : b.all j = some sub) (k i : ℕ) :
    ofSub i ((b.put j sub').sentTo k) = ofSub i (b.sentTo k) ∨ k = j ∧ x.sub = i ∧
      ofSub i ((b.put j sub').sentTo k) = ofSub i (b.sentTo k) ++ [x] := by
  rw [sentTo_put]
  split
  case isFalse => exact .inl rfl
  case isTrue hk =>
    subst hk
    rw [sentTo_of_all hj]
    rcases ho.sent_eq with heq | heq
    · exact .inl (congrArg _ heq)
    · rw [heq, ofSub_append]
      by_cases hx : x.sub = i
      · exact .inr ⟨rfl, hx, congrArg _ (ofSub_singleton hx)⟩
      · exact .inl (by rw [ofSub_singleton_of_ne hx, List.append_nil])

theorem Offered.fate (ho : Offered sub x sub') (hj : b.all j = some sub) :
    (b.put j sub').Fate j x ∧ ∀ k y, b.Fate k y → (b.put j sub').Fate k y := by
  have hself : (b.put j sub').all j = some sub' := Function.update_self _ _ _
  constructor
  · rw [Bus.Fate, sentTo_of_all hself, droppedBy_of_all hself]
    cases ho with
    | sent =>
      refine .inl (List.mem_append_right _ (List.mem_append_right _ List.mem_cons_self))
    | dropped => exact .inr ⟨sub.ch.buf, List.mem_append_right _ List.mem_cons_self⟩
  · intro k y hk
    rw [Bus.Fate, sentTo_put, droppedBy_put]
    split
    case isFalse => exact hk
    case isTrue heq =>
      subst heq
      rw [Bus.Fate, sentTo_of_all hj, droppedBy_of_all hj] at hk
      rcases hk with hk | ⟨buf, hk⟩
      · refine .inl ?_
        rcases ho.sent_eq with heq | heq
        · rwa [heq]
        · rw [heq]
          exact List.mem_append_left _ hk
      · refine .inr ⟨buf, ?_⟩
        cases ho with
        | sent => exact hk
        | dropped => exact List.mem_append_left _ hk

/-- The event is offered to a subscriber that it had not come to yet. -/
theorem Delivery.send {todo audience : List ℕ} (h : Delivery b)
    (hem : b.emission i = some (.sending x todo audience)) (hj : b.all j = some sub)
    (hmem : j ∈ todo) (hnodup : todo.Nodup) (ho : Offered sub x sub') :
    Delivery ((b.put j sub').setEmission i (some (.sending x (todo.erase j) audience))) := by
  have hx : x.sub = i := h.sub_item hem
  obtain ⟨l, hl, hpending⟩ := h.current i _ hem
  obtain ⟨hfate, hmono⟩ := ho.fate (b := b) hj
  refine ⟨h.numbers, fun k i' => ?_, fun i' em hi' => ?_, ?_,
    fun y aud hy k hk => hmono k y (h.broadcast y aud hy k hk), fun y hy => ?_⟩
  · change (ofSub i' ((b.put j sub').sentTo k)).Sublist (ofSub i' b.emitted)
    rcases ho.ofSub_sentTo hj k i' with heq | ⟨rfl, hx', heq⟩
    · rw [heq]
      exact h.sent k i'
    · obtain rfl : i' = i := hx'.symm.trans hx
      rw [heq, hl]
      exact (hpending k hmem).append (.refl _)
  · rcases Table.update_some_eq_some.mp hi' with ⟨rfl, rfl⟩ | ⟨hne, hi'⟩
    · refine ⟨l, hl, fun k hk => ?_⟩
      change (ofSub i' ((b.put j sub').sentTo k)).Sublist l
      rcases ho.ofSub_sentTo hj k i' with heq | ⟨rfl, -⟩
      · rw [heq]
        exact hpending k (List.mem_of_mem_erase hk)
      · exact absurd hk hnodup.not_mem_erase
    · obtain ⟨l', hl', hpending'⟩ := h.current i' em hi'
      refine ⟨l', hl', fun k hk => ?_⟩
      change (ofSub i' ((b.put j sub').sentTo k)).Sublist l'
      rcases ho.ofSub_sentTo hj k i' with heq | ⟨-, hx', -⟩
      · rw [heq]
        exact hpending' k hk
      · exact absurd (hx'.symm.trans hx) hne
  · refine Table.forall_update_some (fun i' em hi' => ?_) fun k hk hnot => ?_
    · have hold := h.served i' em hi'
      cases em with
      | sending => exact fun k hk hnot => hmono k _ (hold k hk hnot)
      | check | rlock | last => exact hold
    · rcases eq_or_ne k j with rfl | hkj
      · exact hfate
      · refine hmono k x (h.served i _ hem k hk fun hmem => hnot ?_)
        exact (List.mem_erase_of_ne hkj).mpr hmem
  · rcases h.fates y hy with hcur | hrest
    · exact .inl (Table.exists_update_some hem id hcur)
    · exact .inr hrest

theorem Delivery.busMove {stopCh : Bool} {running : ℕ → Bool} {close : ClosePhase}
    (h : Delivery b) (hb : BusInv b close) (hm : BusMove stopCh running b b') : Delivery b' := by
  cases hm with
  | nothing => exact h
  | poll hrun hem => exact h.poll hem _
  | @skip i x hem hs =>
    have hrec := h.record [] [x] nofun
    rw [List.append_nil] at hrec
    exact hrec.leave hem (.inr (List.mem_append_right _ List.mem_cons_self))
  | pass hem hs => exact h.goOn hem _ rfl (fun _ _ => trivial) trivial
  | rlock hem hl =>
    have hgo := h.goOn hem (.sending _ b.subscribers b.subscribers) rfl (fun _ _ => trivial)
      fun j hj hnot => absurd hj hnot
    exact hgo.congr rfl rfl rfl rfl rfl rfl
  | @send i j x todo audience sub hem hj hmem =>
    obtain ⟨sub', ho, heq, -⟩ := hb.send hem hj hmem
    rw [heq]
    exact h.send hem hj hmem (hb.sending i _ hem).2.1 ho
  | @runlock i x audience hem =>
    have hrec := h.record [(x, audience)] [] fun y aud hy j hj => by
      obtain ⟨rfl, rfl⟩ := Prod.mk.inj (List.mem_singleton.mp hy)
      exact h.served i _ hem j hj List.not_mem_nil
    rw [List.append_nil] at hrec
    have hgo := hrec.goOn hem (.last x) rfl nofun
      ⟨audience, List.mem_append_right _ List.mem_cons_self⟩
    exact hgo.congr rfl rfl rfl rfl rfl rfl
  | last hem => exact h.leave hem (.inl (h.served _ _ hem))
  | lastSent hem hch =>
    exact (h.leave hem (.inl (h.served _ _ hem))).congr rfl rfl rfl rfl rfl rfl
  | lastPanic => exact h.congr rfl rfl rfl rfl rfl rfl
  | newSubscriber hs hl =>
    have hnone : b.all b.nextSubscriber = none :=
      Option.eq_none_iff_forall_ne_some.mpr fun sub hsub =>
        (hb.subs.fresh _ sub hsub).ne rfl
    refine h.congr ?_ ?_ rfl rfl rfl rfl
    · funext k
      refine sentTo_put.trans ?_
      split
      case isTrue hk => simp [hk, Bus.sentTo, hnone, Chan.sent, Chan.make]
      case isFalse => rfl
    · funext k
      refine droppedBy_put.trans ?_
      split
      case isTrue hk => simp [hk, Bus.droppedBy, hnone]
      case isFalse => rfl
  | @insert j sub hj hphase =>
    exact (h.put hj { sub with phase := .active } rfl rfl).congr rfl rfl rfl rfl rfl rfl
  | done hj hphase => exact h.put hj _ rfl rfl
  | @delete j sub lock hj hl hphase =>
    exact (h.put hj { sub with phase := .closing } rfl rfl).congr rfl rfl rfl rfl rfl rfl
  | closeCh hj hphase =>
    rw [closeCh_eq _ _ _ (hb.subs.stands _ _ hj).once]
    exact h.put hj _ rfl rfl
  | recv hj hch => exact h.put hj _ (recv_eq_some hch).2.2.2 rfl
  | recvEvent => exact h.congr rfl rfl rfl rfl rfl rfl

theorem Delivery.closeMove {α κ β : Type} {s t : MonitorState α κ β E} (h : Delivery s.bus)
    (hb : BusInv s.bus s.close) (hm : CloseMove s t) : Delivery t.bus := by
  cases hm with
  | again | begin | take | stop | await | wait => exact h
  | closeEvents | closeEventsPanic | lock | unlock => exact h.congr rfl rfl rfl rfl rfl rfl
  | closeCh hc hj hmem =>
    dsimp only
    rw [closeCh_eq _ _ _ (hb.subs.stands _ _ hj).once]
    exact h.put hj _ rfl rfl

theorem Delivery.nodup_emitted (h : Delivery b) : b.emitted.Nodup :=
  .of_map Item.n (by rw [h.numbers]; exact List.nodup_range)

theorem Delivery.received (h : Delivery b)
    (hj : b.all j = some sub) (i : ℕ) :
    (ofSub i sub.ch.received).Sublist (ofSub i b.emitted) := by
  have hsent := h.sent j i
  rw [sentTo_of_all hj, Chan.sent, ofSub_append] at hsent
  exact (List.sublist_append_left _ _).trans hsent

end Delivery

/-! ### Events since a moment -/

section Heard

variable {E : Type} {b b' : Bus E} {i j : ℕ} {x : Item E} {em : Emission E}

/-- The event goes or will go to the subscriber, if this stays in the map. -/
def Emission.Reaches (j : ℕ) : Emission E → Prop
  | .check _ | .rlock _ => True
  | .sending _ _ audience => j ∈ audience
  | .last _ => False

/-- An event is on its way to the subscriber, has been broadcast to it or was skipped. -/
def Bus.Reaches (b : Bus E) (j : ℕ) (x : Item E) : Prop :=
  (∃ em, b.emission x.sub = some em ∧ em.item = x ∧ em.Reaches j) ∨
    (∃ audience, (x, audience) ∈ b.broadcasts ∧ j ∈ audience) ∨ x ∈ b.skipped

/-- As long as the subscriber is in the map, it is reached by all events but the `old` ones. -/
structure Heard (old : List (Item E)) (j : ℕ) (b : Bus E) : Prop where
  created : ∃ sub, b.all j = some sub ∧ sub.phase ≠ .creating
  reaches : j ∈ b.subscribers → ∀ x ∈ b.emitted, x ∉ old → b.Reaches j x

/-- A goroutine goes on in `emit`, or returns. -/
theorem Bus.Reaches.goOn {o : Option (Emission E)} (h : b.Reaches j x)
    (hi : b.emission i = some em) (hem : b'.emission = Function.update b.emission i o)
    (hbroadcasts : b.broadcasts ⊆ b'.broadcasts) (hskipped : b.skipped ⊆ b'.skipped)
    (hself : b'.emission x.sub = o → em.item = x → em.Reaches j → b'.Reaches j x) :
    b'.Reaches j x := by
  rcases h with ⟨em', hem', hitem, hreaches⟩ | ⟨audience, hmem, hj⟩ | hskip
  · rcases eq_or_ne x.sub i with rfl | hne
    · obtain rfl := Option.some.inj (hi.symm.trans hem')
      exact hself (by rw [hem, Function.update_self]) hitem hreaches
    · exact .inl ⟨em', by rw [hem, Function.update_of_ne hne, hem'], hitem, hreaches⟩
  · exact .inr (.inl ⟨audience, hbroadcasts hmem, hj⟩)
  · exact .inr (.inr (hskipped hskip))

variable {old : List (Item E)} {sub sub' : Subscriber E}

/-- A subscriber changes, or leaves the map. -/
theorem Heard.put {k : ℕ} (h : Heard old j b) (hk : b.all k = some sub)
    (hall : b'.all = Function.update b.all k (some sub'))
    (hphase : sub.phase ≠ .creating → sub'.phase ≠ .creating)
    (hsubs : j ∈ b'.subscribers → j ∈ b.subscribers) (hem : b'.emission = b.emission)
    (hemitted : b'.emitted = b.emitted) (hbroadcasts : b'.broadcasts = b.broadcasts)
    (hskipped : b'.skipped = b.skipped) : Heard old j b' := by
  refine ⟨?_, fun hj x hx hold => ?_⟩
  · rw [hall]
    exact Table.exists_update_some hk hphase h.created
  · rw [hemitted] at hx
    have hreaches := h.reaches (hsubs hj) x hx hold
    rwa [Bus.Reaches, ← hem, ← hbroadcasts, ← hskipped] at hreaches

theorem Heard.busMove {stopCh : Bool} {running : ℕ → Bool} {close : ClosePhase}
    (h : Heard old j b) (hb : BusInv b close) (hm : BusMove stopCh running b b') :
    Heard old j b' := by
  obtain ⟨sub₀, hj₀, hnew⟩ := h.created
  cases hm with
  | nothing | lastPanic => exact ⟨h.created, h.reaches⟩
  | @poll i event hrun hem =>
    refine ⟨h.created, fun hj x hx hold => ?_⟩
    rcases List.mem_append.mp hx with hx | hx
    · rcases h.reaches hj x hx hold with ⟨em, hem', hitem⟩ | hrest
      · have hne : x.sub ≠ i := by
          rintro rfl
          rw [hem] at hem'
          contradiction
        exact .inl ⟨em, (Function.update_of_ne hne _ _).trans hem', hitem⟩
      · exact .inr hrest
    · obtain rfl := List.mem_singleton.mp hx
      exact .inl ⟨_, Function.update_self _ _ _, rfl, trivial⟩
  | skip hem hs =>
    refine ⟨h.created, fun hj x hx hold => ?_⟩
    refine (h.reaches hj x hx hold).goOn hem rfl (List.Subset.refl _)
      (List.subset_append_left _ _) ?_
    rintro - rfl -
    exact .inr (.inr (List.mem_append_right _ List.mem_cons_self))
  | pass hem hs =>
    refine ⟨h.created, fun hj x hx hold => ?_⟩
    exact (h.reaches hj x hx hold).goOn hem rfl (List.Subset.refl _) (List.Subset.refl _)
      fun hself hitem _ => .inl ⟨_, hself, hitem, trivial⟩
  | rlock hem hl =>
    refine ⟨h.created, fun hj x hx hold => ?_⟩
    exact (h.reaches hj x hx hold).goOn hem rfl (List.Subset.refl _) (List.Subset.refl _)
      fun hself hitem _ => .inl ⟨_, hself, hitem, hj⟩
  | @send i k x todo audience sub hem hk hmem =>
    obtain ⟨sub', ho, heq, -⟩ := hb.send hem hk hmem
    rw [heq]
    have hput : Heard old j (b.put k sub') :=
      h.put hk rfl (fun hp => ho.phase_eq ▸ hp) id rfl rfl rfl rfl
    refine ⟨hput.created, fun hj y hy hold => ?_⟩
    exact (hput.reaches hj y hy hold).goOn hem rfl (List.Subset.refl _) (List.Subset.refl _)
      fun hself hitem haud => .inl ⟨_, hself, hitem, haud⟩
  | @runlock i x audience hem =>
    refine ⟨h.created, fun hj y hy hold => ?_⟩
    refine (h.reaches hj y hy hold).goOn hem rfl (List.subset_append_left _ _)
      (List.Subset.refl _) ?_
    rintro - rfl haud
    exact .inr (.inl ⟨audience, List.mem_append_right _ List.mem_cons_self, haud⟩)
  | last hem | lastSent hem =>
    refine ⟨h.created, fun hj x hx hold => ?_⟩
    exact (h.reaches hj x hx hold).goOn hem rfl (List.Subset.refl _) (List.Subset.refl _)
      fun _ _ hlast => hlast.elim
  | newSubscriber hs hl =>
    refine ⟨⟨sub₀, ?_, hnew⟩, h.reaches⟩
    exact (Function.update_of_ne (hb.subs.fresh j sub₀ hj₀).ne _ _).trans hj₀
  | @insert k sub hk hphase =>
    refine h.put hk rfl (fun _ => nofun) (fun hj => ?_) rfl rfl rfl rfl
    refine (List.mem_cons.mp hj).resolve_left ?_
    rintro rfl
    exact hnew (Option.some.inj (hj₀.symm.trans hk) ▸ hphase)
  | done hk => exact h.put hk rfl (fun _ => nofun) id rfl rfl rfl rfl
  | delete hk => exact h.put hk rfl (fun _ => nofun) List.mem_of_mem_erase rfl rfl rfl rfl
  | closeCh hk hphase =>
    rw [closeCh_eq _ _ _ (hb.subs.stands _ _ hk).once]
    exact h.put hk rfl (fun _ => nofun) id rfl rfl rfl rfl
  | recv hk => exact h.put hk rfl id id rfl rfl rfl rfl
  | recvEvent => exact ⟨h.created, h.reaches⟩

theorem Heard.closeMove {α κ β : Type} {s t : MonitorState α κ β E} (h : Heard old j s.bus)
    (hb : BusInv s.bus s.close) (hm : CloseMove s t) : Heard old j t.bus := by
  cases hm with
  | again | begin | take | stop | await | wait => exact h
  | closeEvents | closeEventsPanic | lock => exact ⟨h.created, h.reaches⟩
  | closeCh hc hk hmem =>
    dsimp only
    rw [closeCh_eq _ _ _ (hb.subs.stands _ _ hk).once]
    exact h.put hk rfl id id rfl rfl rfl rfl
  | unlock => exact ⟨h.created, nofun⟩

end Heard

end GoIndustrial.Monitor
