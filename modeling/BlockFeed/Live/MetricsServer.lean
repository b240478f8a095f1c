import BlockFeed.Live.Host
import BlockFeed.Metrics.Exposition

/-!
# Serving metrics

Metrics are served over HTTP until the program is told to stop. A connection carries one request.
-/

namespace BlockFeed.Live

open Std.Async Std.Net

/-- The name of a status. -/
def statusText : Nat → String
  | 200 => "200 OK"
  | 404 => "404 Not Found"
  | 405 => "405 Method Not Allowed"
  | status => Numeral.ofNat status

/-- The bytes of an answer. -/
def responseBytes (answer : Metrics.Response) : ByteArray :=
  let body := String.join (answer.body.map (· ++ "\n"))
  let head := "HTTP/1.1 " ++ statusText answer.status ++ "\r\ncontent-type: text/plain; version=0.0.4"
    ++ "\r\ncontent-length: " ++ Numeral.ofNat body.utf8ByteSize ++ "\r\nconnection: close\r\n\r\n"
  (head ++ body).toUTF8

/-- The answer to the bytes of a request, of which the first line counts. -/
def answerRequest (m : Metrics) (request : Bytes) : Metrics.Response :=
  let line := (request.takeWhile (· ≠ 13)).map fun b => Char.ofNat b.toNat
  match (String.ofList line).splitOn " " with
  | method :: path :: _ => m.respond method path
  | _ => m.respond "" ""

/-- Answers one request. -/
def Host.serveRequest (h : Host) (socket : TCP.Socket.Client) : IO Unit := do
  try
    let p : Patience := { stopping := some h.stopping }
    match ← p.await (some ((← IO.monoMsNow) + 10000)) (socket.recvSelector 65536) with
    | .came (some request) =>
      (socket.send (responseBytes (answerRequest (← h.state.get).metrics request.toList))).block
      socket.shutdown.block
    | _ => return
  catch _ => return

/-- Accepts connections until it is told to stop. -/
partial def Host.acceptRequests (h : Host) (server : TCP.Socket.Server) : IO Unit := do
  let p : Patience := { stopping := some h.stopping }
  match ← p.await none server.acceptSelector with
  | .came socket =>
    discard <| IO.asTask (h.serveRequest socket)
    h.acceptRequests server
  | _ => return

/-- The address at which metrics are served. -/
def MetricsSettings.socketAddress? (s : MetricsSettings) : Option SocketAddress :=
  match IPv4Addr.ofString s.address.toText, IPv6Addr.ofString s.address.toText with
  | some addr, _ => some (.v4 ⟨addr, s.port⟩)
  | none, some addr => some (.v6 ⟨addr, s.port⟩)
  | none, none => none

/-- Serves metrics until it is told to stop. -/
def Host.serveMetrics (h : Host) (s : MetricsSettings) : IO Unit := do
  try
    let some address := MetricsSettings.socketAddress? s | return
    let server ← TCP.Socket.Server.mk
    server.bind address
    server.listen 128
    h.acceptRequests server
  catch e => IO.eprintln ("metrics server exited: " ++ toString e)

end BlockFeed.Live
