import Mathlib.Tactic.Common

/-!
# TcpConnector

One connection attempt.  The connector is advanced before and behind each poll;
what the system answers on the way is an argument.
-/

namespace GoSocket.Connect

structure AddrInfo where
  ip : String
  port : UInt16
  isTls : Bool
  deriving DecidableEq, Repr

inductive ConnectorStatus where
  | ConnStatusStart
  | ConnStatusConnecting
  | ConnStatusError
  -- the TCP connection stands, the handshake has not begun
  | ConnStatusStartSSL
  | ConnStatusSSLConnecting
  | ConnStatusConnected
  | ConnStatusEnd
  deriving DecidableEq, Repr

def SSL_ERROR_NONE : Int32 := 0
def SSL_ERROR_WANT_READ : Int32 := 2
def SSL_ERROR_WANT_WRITE : Int32 := 3

/-- What `SSLSocket::Connect` meets: no SSL object, an `SSL_connect` that returns
1, or another one with its `SSL_get_error`, which is `SSL_ERROR_NONE` only of 1. -/
inductive Handshake where
  | sslNewFails
  | success
  | fails (error : Int32) (h : error ≠ SSL_ERROR_NONE)
  deriving DecidableEq, Repr

/-- The `TcpSocket` or `SSLSocket` of a connector. -/
structure ConnSocket where
  socket : Nat
  connectError : Int32 := 0
  -- the SSL object, by whether an `SSL_connect` on it has returned success
  ssl : Option Bool := none
  -- the calls of `SSL_connect` on the descriptor
  handshakes : Nat := 0
  deriving DecidableEq, Repr

def ConnSocket.connect (self : ConnSocket) : Handshake → Int32 × ConnSocket
  | .sslNewFails => (-1, { self with ssl := none })
  | .success =>
      (SSL_ERROR_NONE, { self with
        ssl := some true
        handshakes := self.handshakes + 1 })
  | .fails error _ =>
      (error, { self with
        ssl := some false
        handshakes := self.handshakes + 1
        connectError := error })

/-- What a `SocketSelect` is asked to watch. -/
structure SocketSelect where
  reads : List Nat := []
  writes : List Nat := []
  exceptions : List Nat := []
  deriving DecidableEq, Repr

namespace SocketSelect

def readFdSet (self : SocketSelect) (socket : Nat) : SocketSelect :=
  { self with reads := socket :: self.reads }

def writeFdSet (self : SocketSelect) (socket : Nat) : SocketSelect :=
  { self with writes := socket :: self.writes }

def exceptionFdSet (self : SocketSelect) (socket : Nat) : SocketSelect :=
  { self with exceptions := socket :: self.exceptions }

end SocketSelect

/-- What it answers about a descriptor behind the wait. -/
structure Readiness where
  readFdIsSet : Bool := false
  writeFdIsSet : Bool := false
  exceptionFdIsSet : Bool := false
  deriving DecidableEq, Repr

/-- The answers to the calls that a `PreSelect` makes. -/
structure PreAnswers where
  socketFd : Option Nat := none
  noblo : Bool := true
  tickCount : UInt64 := 0
  connects : Bool := true
  handshake : Handshake := .sslNewFails
  deriving DecidableEq, Repr

/-- The answers to those that an `AfterSelect` makes. -/
structure AfterAnswers where
  ready : Readiness := {}
  tickCount : UInt64 := 0
  blo : Bool := true
  deriving DecidableEq, Repr

structure TcpConnector where
  addr : AddrInfo
  connTimeout : UInt32
  isSSLConnector : Bool
  socket : Option ConnSocket := none
  status : ConnectorStatus := .ConnStatusStart
  startConnTime : UInt64 := 0
  deriving DecidableEq, Repr

namespace TcpConnector

def timeout (self : TcpConnector) (tickCount : UInt64) : Int32 :=
  match self.status with
  | .ConnStatusConnecting | .ConnStatusSSLConnecting =>
      (self.startConnTime + self.connTimeout.toUInt64 - tickCount).toUInt32.toInt32
  | .ConnStatusError | .ConnStatusConnected => 0
  | _ => Int32.maxValue

/-- The descriptors that `Close` closes, and the connector behind it. -/
def close (self : TcpConnector) : List Nat × TcpConnector :=
  match self.socket with
  | none => ([], self)
  | some socket =>
      ([socket.socket], { self with socket := none, status := .ConnStatusEnd })

def fail (self : TcpConnector) : TcpConnector :=
  { self with status := .ConnStatusError }

def preConnectSelect (self : TcpConnector) (answers : PreAnswers)
    (sel : SocketSelect) : TcpConnector × SocketSelect :=
  match answers.socketFd with
  | none => (self.fail, sel)
  | some socketFd =>
      if self.addr.ip = "" then (self.fail, sel)
      else if !answers.noblo then (self.fail, sel)
      else
        let self := { self with startConnTime := answers.tickCount }
        if !answers.connects then (self.fail, sel)
        else
          ({ self with
              socket := some { socket := socketFd }
              status := .ConnStatusConnecting },
            (sel.writeFdSet socketFd).exceptionFdSet socketFd)

def afterConnectSelect (self : TcpConnector) (answers : AfterAnswers) :
    TcpConnector :=
  match self.socket with
  | none => self.fail
  | some _ =>
      let timeout := self.timeout answers.tickCount
      if answers.ready.exceptionFdIsSet then self.fail
      else if answers.ready.writeFdIsSet then
        if self.addr.isTls then { self with status := .ConnStatusStartSSL }
        else if !answers.blo then self.fail
        else { self with status := .ConnStatusConnected }
      else if timeout ≤ 0 then self.fail
      else self

def preSelect (self : TcpConnector) (answers : PreAnswers) (sel : SocketSelect) :
    TcpConnector × SocketSelect :=
  match self.status, self.socket with
  | .ConnStatusStart, _ => self.preConnectSelect answers sel
  | .ConnStatusConnecting, some socket =>
      (self, (sel.writeFdSet socket.socket).exceptionFdSet socket.socket)
  | _, _ => (self, sel)

def afterSelect (self : TcpConnector) (answers : AfterAnswers) : TcpConnector :=
  match self.status with
  | .ConnStatusConnecting => self.afterConnectSelect answers
  | _ => self

end TcpConnector

/-! ## SSLConnector -/

namespace SSLConnector

open TcpConnector

def preSSLSelect (self : TcpConnector) (answers : PreAnswers)
    (sel : SocketSelect) : TcpConnector × SocketSelect :=
  match self.socket with
  | none => (self, sel)
  | some socket =>
      let (error, socket) := socket.connect answers.handshake
      let self := { self with socket := some socket }
      if error = SSL_ERROR_WANT_READ then
        ({ self with status := .ConnStatusSSLConnecting },
          (sel.readFdSet socket.socket).exceptionFdSet socket.socket)
      else if error = SSL_ERROR_WANT_WRITE then
        ({ self with status := .ConnStatusSSLConnecting },
          (sel.writeFdSet socket.socket).exceptionFdSet socket.socket)
      else if error = SSL_ERROR_NONE then (self, sel)
      else (self.fail, sel)

def afterSSLSelect (self : TcpConnector) (answers : AfterAnswers) :
    TcpConnector :=
  let timeout := self.timeout answers.tickCount
  if answers.ready.exceptionFdIsSet then self.fail
  else if answers.ready.writeFdIsSet || answers.ready.readFdIsSet then
    if !answers.blo then self.fail
    else { self with status := .ConnStatusConnected }
  else if timeout ≤ 0 then self.fail
  else self

def preSelect (self : TcpConnector) (answers : PreAnswers) (sel : SocketSelect) :
    TcpConnector × SocketSelect :=
  let (self, sel) := self.preSelect answers sel
  match self.status, self.socket with
  | .ConnStatusStartSSL, _ => preSSLSelect self answers sel
  | .ConnStatusSSLConnecting, some socket =>
      let sel := sel.exceptionFdSet socket.socket
      if socket.connectError = SSL_ERROR_WANT_READ then
        (self, sel.readFdSet socket.socket)
      else if socket.connectError = SSL_ERROR_WANT_WRITE then
        (self, sel.writeFdSet socket.socket)
      else (self, sel)
  | _, _ => (self, sel)

def afterSelect (self : TcpConnector) (answers : AfterAnswers) : TcpConnector :=
  let self := self.afterSelect answers
  match self.status with
  | .ConnStatusSSLConnecting => afterSSLSelect self answers
  | _ => self

end SSLConnector

namespace TcpConnector

def callPreSelect (self : TcpConnector) (answers : PreAnswers)
    (sel : SocketSelect) : TcpConnector × SocketSelect :=
  if self.isSSLConnector then SSLConnector.preSelect self answers sel
  else self.preSelect answers sel

def callAfterSelect (self : TcpConnector) (answers : AfterAnswers) :
    TcpConnector :=
  if self.isSSLConnector then SSLConnector.afterSelect self answers
  else self.afterSelect answers

def new (withSSL : Bool) (addr : AddrInfo) (connTimeout : UInt32) :
    TcpConnector where
  addr
  connTimeout
  isSSLConnector := withSSL && addr.isTls

/-! ## What a connector does around a poll -/

/-- `PreConnectSelect` returns with the descriptor that `socket` has given. -/
def FailsEarly (self : TcpConnector) (answers : PreAnswers) : Prop :=
  self.addr.ip = "" ∨ answers.noblo = false ∨ answers.connects = false

instance (self : TcpConnector) (answers : PreAnswers) :
    Decidable (self.FailsEarly answers) := by
  unfold FailsEarly
  infer_instance

/-- The connector behind a `PreSelect`. -/
inductive PreCases (self : TcpConnector) (answers : PreAnswers) :
    TcpConnector → Prop
  | same (hstatus : self.status ≠ .ConnStatusStart)
      (hidle : self.isSSLConnector = true →
        self.status = .ConnStatusStartSSL → self.socket = none) :
      PreCases self answers self
  | noSocket (hstatus : self.status = .ConnStatusStart)
      (hfd : answers.socketFd = none) : PreCases self answers self.fail
  | failsEarly (hstatus : self.status = .ConnStatusStart) (socketFd : Nat)
      (hfd : answers.socketFd = some socketFd) (hearly : self.FailsEarly answers)
      (startConnTime : UInt64) :
      PreCases self answers ({ self with startConnTime } : TcpConnector).fail
  | connecting (hstatus : self.status = .ConnStatusStart) (socketFd : Nat)
      (hfd : answers.socketFd = some socketFd)
      (hearly : ¬ self.FailsEarly answers) :
      PreCases self answers { self with
        startConnTime := answers.tickCount
        socket := some { socket := socketFd }
        status := .ConnStatusConnecting }
  | handshake (hssl : self.isSSLConnector = true)
      (hstatus : self.status = .ConnStatusStartSSL) (socket : ConnSocket)
      (hsocket : self.socket = some socket) (status : ConnectorStatus)
      (hnext : answers.handshake = .success ∧ status = .ConnStatusStartSSL ∨
        answers.handshake ≠ .success ∧
          (status = .ConnStatusSSLConnecting ∧ answers.handshake ≠ .sslNewFails ∨
            status = .ConnStatusError)) :
      PreCases self answers { self with
        socket := some (socket.connect answers.handshake).2
        status }

/-- The descriptor is ready while the handshake goes on. -/
structure ReadyInHandshake (s : TcpConnector) (answers : AfterAnswers) :
    Prop where
  isSSLConnector : s.isSSLConnector = true
  status : s.status = .ConnStatusSSLConnecting
  exceptionFdIsSet : answers.ready.exceptionFdIsSet = false
  ready : (answers.ready.writeFdIsSet || answers.ready.readFdIsSet) = true
  blo : answers.blo = true

instance (self : TcpConnector) (answers : AfterAnswers) :
    Decidable (ReadyInHandshake self answers) :=
  decidable_of_iff
    (self.isSSLConnector = true ∧ self.status = .ConnStatusSSLConnecting ∧
      answers.ready.exceptionFdIsSet = false ∧
      (answers.ready.writeFdIsSet || answers.ready.readFdIsSet) = true ∧
      answers.blo = true)
    ⟨fun ⟨h₁, h₂, h₃, h₄, h₅⟩ => ⟨h₁, h₂, h₃, h₄, h₅⟩,
      fun ⟨h₁, h₂, h₃, h₄, h₅⟩ => ⟨h₁, h₂, h₃, h₄, h₅⟩⟩

/-- The connector behind an `AfterSelect`. -/
inductive AfterCases (self : TcpConnector) (answers : AfterAnswers) :
    TcpConnector → Prop
  | same (hready : ¬ ReadyInHandshake self answers) : AfterCases self answers self
  | failed (hready : ¬ ReadyInHandshake self answers)
      (hstatus : self.status = .ConnStatusConnecting ∨
        self.status = .ConnStatusSSLConnecting) : AfterCases self answers self.fail
  | startSSL (hstatus : self.status = .ConnStatusConnecting)
      (hsocket : self.socket ≠ none) (hTls : self.addr.isTls = true) :
      AfterCases self answers { self with status := .ConnStatusStartSSL }
  | connected (hstatus : self.status = .ConnStatusConnecting)
      (hsocket : self.socket ≠ none) (hTls : self.addr.isTls = false) :
      AfterCases self answers { self with status := .ConnStatusConnected }
  | sslConnected (hready : ReadyInHandshake self answers) :
      AfterCases self answers { self with status := .ConnStatusConnected }

variable {self : TcpConnector}

private theorem preConnectSelect_cases (hstatus : self.status = .ConnStatusStart)
    (answers : PreAnswers) (sel : SocketSelect) :
    PreCases self answers (self.preConnectSelect answers sel).1 ∧
      (self.preConnectSelect answers sel).1.status ≠ .ConnStatusStartSSL ∧
      (self.preConnectSelect answers sel).1.status ≠ .ConnStatusSSLConnecting := by
  unfold preConnectSelect
  split
  · next hfd => exact ⟨.noSocket hstatus hfd, by simp [fail], by simp [fail]⟩
  · next socketFd hfd =>
      by_cases hip : self.addr.ip = ""
      · rw [if_pos hip]
        exact ⟨.failsEarly hstatus socketFd hfd (.inl hip) self.startConnTime,
          by simp [fail], by simp [fail]⟩
      · rw [if_neg hip]
        cases hnoblo : answers.noblo with
        | false =>
            exact ⟨.failsEarly hstatus socketFd hfd (.inr (.inl hnoblo))
              self.startConnTime, by simp [fail], by simp [fail]⟩
        | true =>
            cases hconnects : answers.connects with
            | false =>
                exact ⟨.failsEarly hstatus socketFd hfd (.inr (.inr hconnects))
                  answers.tickCount, by simp [fail], by simp [fail]⟩
            | true =>
                refine ⟨.connecting hstatus socketFd hfd ?_, by simp, by simp⟩
                simp [FailsEarly, hip, hnoblo, hconnects]

private theorem preSSLSelect_cases (hssl : self.isSSLConnector = true)
    (hstatus : self.status = .ConnStatusStartSSL) (answers : PreAnswers)
    (sel : SocketSelect) :
    PreCases self answers (SSLConnector.preSSLSelect self answers sel).1 := by
  unfold SSLConnector.preSSLSelect
  split
  · next hsocket => exact .same (by simp [hstatus]) fun _ _ => hsocket
  · next socket hsocket =>
      have next (status : ConnectorStatus)
          (hnext : answers.handshake = .success ∧ status = .ConnStatusStartSSL ∨
            answers.handshake ≠ .success ∧
              (status = .ConnStatusSSLConnecting ∧ answers.handshake ≠ .sslNewFails ∨
                status = .ConnStatusError)) :
          PreCases self answers { self with
            socket := some (socket.connect answers.handshake).2
            status } :=
        .handshake hssl hstatus socket hsocket status hnext
      cases hhandshake : answers.handshake with
      | sslNewFails =>
          have := next .ConnStatusError (.inr (by simp [hhandshake]))
          simpa [hhandshake, ConnSocket.connect, SSL_ERROR_WANT_READ,
            SSL_ERROR_WANT_WRITE, SSL_ERROR_NONE, fail] using this
      | success =>
          have := next .ConnStatusStartSSL (.inl (by simp [hhandshake]))
          simpa [hhandshake, ConnSocket.connect, SSL_ERROR_WANT_READ,
            SSL_ERROR_WANT_WRITE, SSL_ERROR_NONE, fail, hstatus] using this
      | fails error herror =>
          have hwait := next .ConnStatusSSLConnecting (.inr (by simp [hhandshake]))
          have hfail := next .ConnStatusError (.inr (by simp [hhandshake]))
          rw [hhandshake] at hwait hfail
          dsimp only [ConnSocket.connect] at hwait hfail ⊢
          by_cases hread : error = SSL_ERROR_WANT_READ
          · rw [if_pos hread]
            exact hwait
          · rw [if_neg hread]
            by_cases hwrite : error = SSL_ERROR_WANT_WRITE
            · rw [if_pos hwrite]
              exact hwait
            · rw [if_neg hwrite, if_neg herror]
              exact hfail

private theorem preSelect_of_ne {answers : PreAnswers} {sel : SocketSelect}
    (hstatus : self.status ≠ .ConnStatusStart) :
    (self.preSelect answers sel).1 = self := by
  unfold preSelect
  split
  · next h => exact absurd h hstatus
  · rfl
  · rfl

theorem callPreSelect_cases (self : TcpConnector) (answers : PreAnswers)
    (sel : SocketSelect) :
    PreCases self answers (self.callPreSelect answers sel).1 := by
  unfold callPreSelect SSLConnector.preSelect
  by_cases hstatus : self.status = .ConnStatusStart
  · obtain ⟨hcases, hstartSSL, hsslConnecting⟩ :=
      preConnectSelect_cases hstatus answers sel
    have hpre : self.preSelect answers sel = self.preConnectSelect answers sel := by
      unfold preSelect
      rw [hstatus]
    rw [hpre]
    split
    · dsimp only
      split
      · next h => exact absurd h hstartSSL
      · next h _ => exact absurd h hsslConnecting
      · exact hcases
    · exact hcases
  · have hpre : (self.preSelect answers sel).1 = self := preSelect_of_ne hstatus
    split
    · next hssl =>
        dsimp only
        rw [hpre]
        split
        · next h => exact preSSLSelect_cases hssl h answers _
        · next h _ =>
            have hidle : PreCases self answers self :=
              .same hstatus fun _ hstart => by simp [hstart] at h
            split
            · exact hidle
            · split
              · exact hidle
              · exact hidle
        · next h _ => exact .same hstatus fun _ hstart => absurd hstart h
    · next hssl =>
        rw [hpre]
        exact .same hstatus fun h => absurd h hssl

private theorem not_readyInHandshake {answers : AfterAnswers}
    (hstatus : self.status ≠ .ConnStatusSSLConnecting) :
    ¬ ReadyInHandshake self answers :=
  fun h => hstatus h.status

private theorem afterConnectSelect_cases
    (hstatus : self.status = .ConnStatusConnecting) (answers : AfterAnswers) :
    AfterCases self answers (self.afterConnectSelect answers) ∧
      (self.afterConnectSelect answers).status ≠ .ConnStatusSSLConnecting := by
  have hready : ¬ ReadyInHandshake self answers :=
    not_readyInHandshake (by simp [hstatus])
  have hfail : AfterCases self answers self.fail ∧
      self.fail.status ≠ .ConnStatusSSLConnecting :=
    ⟨.failed hready (.inl hstatus), by simp [fail]⟩
  unfold afterConnectSelect
  split
  · exact hfail
  · next socket hsocket =>
      have hne : self.socket ≠ none := by simp [hsocket]
      dsimp only
      split
      · exact hfail
      · split
        · cases hTls : self.addr.isTls with
          | true => exact ⟨.startSSL hstatus hne hTls, by simp⟩
          | false =>
              simp only [Bool.false_eq_true, if_false]
              split
              · exact hfail
              · exact ⟨.connected hstatus hne hTls, by simp⟩
        · split
          · exact hfail
          · exact ⟨.same hready, by simp [hstatus]⟩

private theorem afterSSLSelect_cases (hssl : self.isSSLConnector = true)
    (hstatus : self.status = .ConnStatusSSLConnecting) (answers : AfterAnswers) :
    AfterCases self answers (SSLConnector.afterSSLSelect self answers) := by
  unfold SSLConnector.afterSSLSelect
  dsimp only
  split
  · next hexception =>
      refine .failed (fun h => ?_) (.inr hstatus)
      simp [h.exceptionFdIsSet] at hexception
  · next hexception =>
      split
      · next hready =>
          split
          · next hblo =>
              refine .failed (fun h => ?_) (.inr hstatus)
              simp [h.blo] at hblo
          · next hblo =>
              exact .sslConnected
                ⟨hssl, hstatus, by simpa using hexception, hready, by simpa using hblo⟩
      · next hready =>
          split
          · exact .failed (fun h => hready h.ready) (.inr hstatus)
          · exact .same fun h => hready h.ready

theorem callAfterSelect_cases (self : TcpConnector) (answers : AfterAnswers) :
    AfterCases self answers (self.callAfterSelect answers) := by
  unfold callAfterSelect SSLConnector.afterSelect afterSelect
  by_cases hstatus : self.status = .ConnStatusConnecting
  · obtain ⟨hcases, hne⟩ := afterConnectSelect_cases hstatus answers
    rw [hstatus]
    dsimp only
    split
    · split
      · next h => exact absurd h hne
      · exact hcases
    · exact hcases
  · have hself : (match self.status with
        | .ConnStatusConnecting => self.afterConnectSelect answers
        | _ => self) = self := by
      split
      · next h => exact absurd h hstatus
      · rfl
    rw [hself]
    split
    · next hssl =>
        dsimp only
        split
        · next h => exact afterSSLSelect_cases hssl h answers
        · next h => exact .same (not_readyInHandshake h)
    · next hssl => exact .same fun h => hssl h.isSSLConnector

/-! ## Which connectors have a socket -/

/-- There is no socket before the attempt, and one while it goes on. -/
structure Sound (s : TcpConnector) : Prop where
  start : s.status = .ConnStatusStart → s.socket = none
  held : s.status = .ConnStatusConnecting ∨ s.status = .ConnStatusStartSSL ∨
    s.status = .ConnStatusSSLConnecting ∨ s.status = .ConnStatusConnected →
      s.socket ≠ none

def fds (self : TcpConnector) : List Nat :=
  (self.socket.map ConnSocket.socket).toList

variable {s t : TcpConnector}

theorem sound_new (withSSL : Bool) (addr : AddrInfo) (connTimeout : UInt32) :
    Sound (new withSSL addr connTimeout) := by
  constructor <;> simp [new]

theorem Sound.pre {answers : PreAnswers} (h : Sound s)
    (hs : PreCases s answers t) : Sound t := by
  cases hs with
  | same => exact h
  | noSocket => constructor <;> simp [fail]
  | failsEarly => constructor <;> simp [fail]
  | connecting => constructor <;> simp
  | handshake hssl hstatus socket hsocket status hnext =>
      constructor
      case start =>
        rcases hnext with ⟨-, rfl⟩ | ⟨-, ⟨rfl, -⟩ | rfl⟩ <;> simp
      case held => simp

theorem Sound.after {answers : AfterAnswers} (h : Sound s)
    (hs : AfterCases s answers t) : Sound t := by
  cases hs with
  | same => exact h
  | failed => constructor <;> simp [fail]
  | startSSL hstatus hsocket => exact ⟨by simp, fun _ => hsocket⟩
  | connected hstatus hsocket => exact ⟨by simp, fun _ => hsocket⟩
  | sslConnected hready =>
      exact ⟨by simp, fun _ => h.held (.inr (.inr (.inl hready.status)))⟩

theorem AfterCases.socket {answers : AfterAnswers}
    (hs : AfterCases s answers t) : t.socket = s.socket := by
  cases hs <;> rfl

theorem AfterCases.addr {answers : AfterAnswers}
    (hs : AfterCases s answers t) : t.addr = s.addr := by
  cases hs <;> rfl

theorem AfterCases.status_ne_start {answers : AfterAnswers}
    (hs : AfterCases s answers t) (h : s.status ≠ .ConnStatusStart) :
    t.status ≠ .ConnStatusStart := by
  cases hs <;> simp [fail, h]

theorem PreCases.addr {answers : PreAnswers} (hs : PreCases s answers t) :
    t.addr = s.addr := by
  cases hs <;> rfl

theorem PreCases.status_ne_start {answers : PreAnswers}
    (hs : PreCases s answers t) : t.status ≠ .ConnStatusStart := by
  cases hs with
  | same hstatus => exact hstatus
  | handshake hssl hstatus socket hsocket status hnext =>
      rcases hnext with ⟨-, rfl⟩ | ⟨-, ⟨rfl, -⟩ | rfl⟩ <;> simp
  | _ => simp [fail]

theorem connect_socket (socket : ConnSocket) (handshake : Handshake) :
    (socket.connect handshake).2.socket = socket.socket := by
  cases handshake <;> rfl

theorem PreCases.fds_of_ne {answers : PreAnswers} (hs : PreCases s answers t)
    (h : s.status ≠ .ConnStatusStart) : t.fds = s.fds := by
  cases hs with
  | same => rfl
  | noSocket hstatus => exact absurd hstatus h
  | failsEarly hstatus => exact absurd hstatus h
  | connecting hstatus => exact absurd hstatus h
  | handshake hssl hstatus socket hsocket =>
      simp [fds, hsocket, connect_socket]

@[simp] theorem close_eq (self : TcpConnector) : self.close.1 = self.fds := by
  unfold close fds
  cases self.socket <;> rfl

end TcpConnector

end GoSocket.Connect
