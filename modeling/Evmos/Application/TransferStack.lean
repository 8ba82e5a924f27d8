import Evmos.Application.State

/-! The transfer stack: the transfer module, with the claims and the recovery middlewares around it. -/

namespace Evmos.Application

open Library

/-- `OnRecvPacket` of an IBC module, whose error is the error acknowledgement it returns. -/
abbrev Callback := State → Packet → Result Unit × State

/-- A middleware: the module it wraps, and then its own keeper unless there was an error. -/
def middleware (keeper inner : Callback) : Callback := fun s packet =>
  match inner s packet with
  | (.error err, s) => (.error err, s)
  | (.ok (), s) => keeper s packet

variable (app : App)

/-- `OnRecvPacket` of the transfer module. -/
def transferOnRecvPacket : Callback := fun s packet =>
  match app.receiveTransfer s.bank packet with
  | .error err => (.error err, s)
  | .ok bank => (.ok (), { s with bank := bank })

/-- `OnRecvPacket` of the claims keeper. -/
def claimsOnRecvPacket : Callback := fun s packet =>
  let (ack, part) :=
    Claims.onRecvPacket app.claimsKeeper s.blockTime (claimsView.get s) packet.claims
  (ack, claimsView.set part s)

/-- `OnRecvPacket` of the recovery keeper. -/
def recoveryOnRecvPacket : Callback := fun s packet =>
  let (ack, part) :=
    Recovery.onRecvPacket app.recoveryKeeper s.blockTime s.recoveryView packet.recovery
  (ack, s.setRecovery part)

/-- `transferStack`, from the top to the bottom. -/
def transferStack : Callback :=
  middleware (recoveryOnRecvPacket app)
    (middleware (claimsOnRecvPacket app) (transferOnRecvPacket app))

/-- `RecvPacket` of core IBC, which keeps what the stack did only if it succeeds. -/
def recvPacket (s : State) (packet : Packet) : State :=
  match transferStack app s packet with
  | (.ok (), after) => after
  | (.error _, _) => s

/-- `OnAcknowledgementPacket` of the stack, to which the recovery adds nothing. -/
def acknowledgePacket (s : State) (packet : Packet) (ack : Claims.Ack) : Result State := do
  let bank ← app.acknowledgeTransfer s.bank packet ack
  let s := { s with bank := bank }
  let (res, part) := Claims.onAcknowledgementPacket app.claimsKeeper s.blockTime (claimsView.get s)
    packet.claims ack
  res
  .ok (claimsView.set part s)

end Evmos.Application
