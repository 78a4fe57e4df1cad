import GoIndustrial.EtherNetIP.Connections
import GoIndustrial.EtherNetIP.Receipt

/-!
# No input makes an endpoint panic

Bytes arrive at a server on any number of connections, and datagrams at an adapter runtime or at a
scanner. None of them leads to an access outside of a slice: each decoder checks what is left before
it reads, and the router, the assembly object and the connection manager check the paths and the
data they are given.

For the server this is an invariant of its runs. A handler panics in a header that is too short, in
the switch, or in the response header, and each of the three is excluded where it can happen.

## Main results

* `EtherNetIP.ServerState.NoPanic.step` : no step of a server with safe objects leads to a panic.
* `EtherNetIP.endpoints_ne_panic` : neither the server of an adapter nor the two receivers of
  datagrams panic.
-/

namespace GoIndustrial.EtherNetIP

variable {σ : Type}

namespace ServerState

/-- No handler has panicked. -/
def NoPanic (s : ServerState σ) : Prop := ∀ id c, s.conns id = some c → c.phase ≠ .panicked

namespace NoPanic

variable {srv : Server σ} {maxClients : ℕ} {s t : ServerState σ} {id : ℕ} {c : ServerConn}

/-- One connection changes. -/
theorem update (hi : s.NoPanic) (ht : t.conns = Function.update s.conns id (some c))
    (h : c.phase ≠ .panicked) : t.NoPanic := by
  rw [NoPanic, ht]
  exact Table.forall_update_some hi h

theorem readHeader (h : headerSize ≤ c.input.length) : c.readHeader.phase ≠ .panicked := by
  obtain ⟨header, hheader⟩ :=
    (safe_parseHeader (List.length_take_of_le h)).exists_ok
  simp only [ServerConn.readHeader, hheader]
  split_ifs <;> nofun

theorem switched (h : srv.router.Safe) (f : Frame) (v : View σ) :
    (srv.handleFrame f v).phase f ≠ .panicked := by
  have hspec := srv.handleFrame_spec f v
  generalize srv.handleFrame f v = w at hspec
  cases hspec with
  | register | unregister | simple => nofun
  | explicit _ _ _ handled hsafe =>
    simp only [Switched.phase]
    match handled.result, hsafe h with
    | .ok _, _ | .error (.error _), _ => nofun

theorem handlerStep (hi : s.NoPanic) (hsrv : srv.router.Safe) (hc : s.conns id = some c)
    {a : HandlerStep} (h : s.handlerStep srv id c a = some t) : t.NoPanic := by
  cases handlerStep_spec h with
  | deliver bytes => exact hi.update rfl (hi id c hc)
  | readHeader _ hlen => exact hi.update rfl (readHeader hlen)
  | handle f => exact hi.update rfl (switched hsrv f _)
  | register | readData | writeHeader | writeData | leave | remove | close =>
    exact hi.update rfl nofun

theorem loopStep (hi : s.NoPanic) {a : LoopStep} (h : s.loopStep maxClients a = some t) :
    t.NoPanic := by
  cases loopStep_spec h with
  | accept | refuse | start => exact hi.update rfl nofun
  | pass => exact hi

/-- **No step leads to a panic** when the objects of the router do not. -/
theorem step (hi : s.NoPanic) (hsrv : srv.router.Safe) {a : ServerStep σ}
    (h : s.step srv maxClients a = some t) : t.NoPanic := by
  cases a with
  | loop a => exact hi.loopStep h
  | handler id a =>
    obtain ⟨c, hc, h⟩ := Option.bind_eq_some_iff.mp h
    exact hi.handlerStep hsrv hc h
  | device f =>
    cases h
    exact hi

end NoPanic

theorem noPanic_of_reachable {srv : Server σ} {maxClients : ℕ} {device : σ}
    (hsrv : srv.router.Safe) {G : ServerState σ → ServerStep σ → Prop} {s : ServerState σ}
    (h : (serverSystem srv maxClients device).Reachable G s) : s.NoPanic :=
  h.invariant (I := NoPanic) (fun _ _ h => by cases h) fun _ _ _ hi _ hs => hi.step hsrv hs

end ServerState

/-- **No input makes an endpoint panic**: whatever arrives on the connections of a server with the
assembly object and the connection manager, next to other objects that do not panic, and whatever
datagram arrives at a runtime or at a scanner in any state. -/
theorem endpoints_ne_panic {τ : Type} (router : Router (Adapter τ)) (hrouter : router.Safe)
    (identity : ListIdentityItem) (maxClients : ℕ) (device : Adapter τ) :
    (∀ s, (serverSystem ⟨registerAdapter router, identity⟩ maxClients device).Reachable
      (fun _ _ => True) s → s.NoPanic) ∧
    (∀ (r : Runtime) (data : List UInt8) (now : ℤ), r.handlePacket data now ≠ .error .panic) ∧
    ∀ (sc : IOScanner) (data : List UInt8) (now : ℤ),
      sc.handleIncomingPacket data now ≠ .error .panic :=
  ⟨fun _ h => ServerState.noPanic_of_reachable (safe_registerAdapter hrouter) h,
    Runtime.handlePacket_ne_panic, IOScanner.handleIncomingPacket_ne_panic⟩

/-- Without other objects. A client registers and sends a message with an item that announces more
data than there is, and is answered with an error; a datagram announces too much as well. -/
theorem endpoints_ne_panic_long_item :
    let M := serverSystem ⟨registerAdapter newMessageRouter, bareServer.identity⟩ 0
      (⟨⟨fun _ => none⟩, .newConnectionManager, ()⟩ : Adapter Unit)
    (newMessageRouter : Router (Adapter Unit)).Safe ∧
    (∃ s, M.Reachable (fun _ _ => True) s ∧ s.NoPanic ∧
      (s.conns 0).map (fun c => (c.input, c.output.drop 28)) =
        some ([], [0x6F, 0, 0, 0, 1, 0, 0, 0, 1, 0, 0, 0] ++ .replicate 12 0)) ∧
    Runtime.handlePacket ⟨fun _ => none, ⟨fun _ => none⟩⟩
      [2, 0, 0x02, 0x80, 4, 0, 1, 0, 0, 0, 0xB1, 0, 0xFF, 0xFF] 0 ≠ .error .panic := by
  intro M
  obtain ⟨hserver, hruntime, -⟩ := endpoints_ne_panic newMessageRouter Router.safe_newMessageRouter
    bareServer.identity 0 (⟨⟨fun _ => none⟩, .newConnectionManager, ()⟩ : Adapter Unit)
  obtain ⟨s, hs, hshown⟩ := TransitionSystem.exists_reachable_of_exec (M := M)
    (G := fun _ _ => True) (f := fun s => (s.conns 0).map fun c => (c.input, c.output.drop 28))
    (b := some ([], [0x6F, 0, 0, 0, 1, 0, 0, 0, 1, 0, 0, 0] ++ .replicate 12 0))
    (acceptSteps 0 ++ frameSteps 0 commandRegisterSession 0 [1, 0, 0, 0] ++
      frameSteps 0 commandSendRRData 1
        [0, 0, 0, 0, 0, 0, 2, 0, 0, 0, 0, 0, 0xB2, 0, 0xFF, 0xFF, 1, 2]) (by decide +kernel)
  exact ⟨Router.safe_newMessageRouter, ⟨s, hs, hserver s hs, hshown⟩, hruntime _ _ _⟩

end GoIndustrial.EtherNetIP
