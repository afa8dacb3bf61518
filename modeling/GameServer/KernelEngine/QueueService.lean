import GameServer.KernelEngine.Model.QueueService
import GameServer.ServiceCore.DataQueue
import Mathlib.Data.List.Forall2
/-!
# KernelEngine — no request is lost on the way to the sender

Between a caller and `OnQueueServiceSink` a request passes the data
queue and the thread's buffer. The queue keeps the order
(`insertData_spec`, `distillData_spec`), and a request read from the
buffer is the one laid out there (`onQueueServiceSink_write`). What can
go wrong is the size: the callers admit a request whose bytes, padding
included, are up to four more than the buffer holds. The queue then
hands out a packet of size 0 and the thread hands on the buffer as the
request before left it.
-/

namespace GameServer.KernelEngine

open ServiceCore

variable {r : Request} {rs : List Request} {qs : QueueService} {stack : Memory}

/-! ## A request and its bytes -/

theorem Request.length_bytes : (r.bytes stack).length = r.size := by
  cases r with
  | send _ _ _ data =>
    simp only [Request.bytes, Request.size, List.length_append, length_wordBytes,
      length_dwordBytes, Memory.length_read, sizeofSendHead]
    omega
  | safeClose _ => rfl
  | allowBatch _ _ => simp [Request.bytes, Request.size]
  | detectSocket => rfl

/-- The packet a request is queued as. -/
def Carries (p : Packet) (r : Request) : Prop :=
  p.identifier = r.identifier ∧ ∃ stack, p.payload = r.bytes stack

/-- **The queue holds the requests `rs`**, in order, with one completion
posted for each. -/
structure Holds (qs : QueueService) (rs : List Request) : Prop where
  packets : ∃ ps, Represents qs.dataQueue ps ∧ List.Forall₂ Carries ps rs
  posted_eq : qs.posted = rs.length

/-- A packet is appended to the queue, and one completion posted. -/
theorem addToQueue_packet {identifier : UInt16} {data : List UInt8} {alloc : Bool}
    {ps : List Packet} (h : Represents qs.dataQueue ps)
    (hok : InsertOk qs.dataQueue data.length alloc) :
    ∃ qs', qs.addToQueue identifier data data.length alloc = some qs' ∧
      Represents qs'.dataQueue (ps ++ [⟨identifier, data⟩]) ∧ qs'.posted = qs.posted + 1 := by
  have hword : word data.length = data.length := word_of_lt (by have := hok.size_lt; omega)
  have htake : data.take (word data.length) = data := by
    rw [hword, List.take_of_length_le le_rfl]
  have hlt : (data.take (word data.length)).length < 2 ^ 16 := by
    rw [htake]
    have := hok.size_lt
    omega
  rw [← htake] at hok
  obtain ⟨q', hq', hrep⟩ := @insertData_spec qs.dataQueue ps alloc identifier ⟨_, hlt⟩ h hok
  refine ⟨{ qs with dataQueue := q', posted := qs.posted + 1 }, ?_, ?_, rfl⟩
  · rw [QueueService.addToQueue, hq', Option.map_some]
  · simpa only [htake] using hrep

theorem getData_spec {p : Packet} {ps : List Packet} (h : Represents qs.dataQueue (p :: ps)) :
    ∃ q', qs.getData = some
        ({ qs with dataQueue := q', buffer := qs.buffer.write 0 (p.handedOut maxAsynchronismData).2 },
          some (p.handedOut maxAsynchronismData).1) ∧
      Represents q' ps := by
  obtain ⟨q', hq', hrep⟩ := distillData_spec maxAsynchronismData h
  exact ⟨q', by simp only [QueueService.getData, hq', Option.map_some], hrep⟩

/-- A payload the size check lets through, one byte too long for the
thread's buffer. -/
@[irreducible] def longPayload : List UInt8 := List.replicate 16373 7

theorem length_longPayload : longPayload.length = 16373 := by
  unfold longPayload
  exact List.length_replicate

end GameServer.KernelEngine
