import HaidiBms.FrameParser.RoundTrip
import HaidiBms.Session.Alone

/-!
# A pack at the other end of the line

The session is one end of a line, and here is the other: a pack answers each frame it is sent with some messages, whose bytes come back in order and none of them lost, but in whatever pieces the port makes of them and whenever it does. What a list of requests comes to, each answered by a whole reply, is the conversation of the two.
-/

namespace Haidi

open Batches

variable {capacity : ℕ+}

/-! ### What is said -/

/-- A pack answers the frames it is sent, from its address. -/
structure Pack where
  address : UInt8
  answers : MessageBytes → List DataBytes

namespace Pack

variable (pack : Pack)

/-- What the pack answers a request. -/
def reply (setup : Setup) (req : Request) : List DataBytes := pack.answers (encode setup.hostAddress req.id req.data)

/-- The bytes of some messages under a Data ID. -/
def bytes (id : DataId) (messages : List DataBytes) : List UInt8 :=
  messages.flatMap fun data => (encode pack.address id data).toList

/-- The bytes that a frame is answered with. -/
def response (frame : MessageBytes) : List UInt8 :=
  pack.bytes (getElem frame msgDataIdIndex msgDataIdIndex_lt) (pack.answers frame)

end Pack

/-- The counter of a message, where its command numbers its messages. -/
def counter (data : DataBytes) : ℕ := (getElem data 0 byte0_lt).toNat

/-- A reply has what its command takes: one message, the awaited number of pages under different counters, or a stream up to its sentinel. -/
structure Whole (req : Request) (items : ℕ) (reply : List DataBytes) : Prop where
  single : (multiframeInfo req.id).multi = false → reply.length = 1
  paged : (multiframeInfo req.id).paginated → 0 < reply.length ∧ reply.length = awaited req.id items ∧
    (reply.map counter).Nodup ∧ ∀ data ∈ reply, counter data ≤ 16
  streamed : (multiframeInfo req.id).streaming = true → ∃ pages last, reply = pages ++ [last] ∧ counter last = 255 ∧
    ∀ data ∈ pages, counter data ≠ 255

/-- The records that a stream's messages make up, four by four. -/
def records (messages : List DataBytes) : List Event := ((deal 4 [] messages).filterMap Sum.getRight?).map recordEvent

/-- What a whole reply comes to. -/
def outcome (pack : Pack) (req : Request) (items : ℕ) (reply : List DataBytes) : List Event :=
  if (multiframeInfo req.id).streaming then records reply.dropLast
  else if (multiframeInfo req.id).multi then
    [({ request := req, items, heard := (reply.map (encode pack.address req.id)).reverse, deadlineMs := 0 } : Exchange).report]
  else reply.map (answerTo req)

/-- What is known of the pack once it has answered. -/
def Setup.after (setup : Setup) (pack : Pack) (req : Request) : Setup :=
  ((pack.reply setup req).head?.map fun data => setup.learn req.id data).getD setup

/-- What a list of requests comes to. -/
def conversation (pack : Pack) : Setup → List Request → List Event
  | _, [] => []
  | setup, req :: rest =>
    outcome pack req (setup.itemsFor req).toNat (pack.reply setup req) ++ conversation pack (setup.after pack req) rest

/-- Each request of a list is answered wholly. -/
def Fluent (pack : Pack) : Setup → List Request → Prop
  | _, [] => True
  | setup, req :: rest =>
    Whole req (setup.itemsFor req).toNat (pack.reply setup req) ∧ Fluent pack (setup.after pack req) rest

/-- What has been shown of a kind, oldest first. -/
def told {α : Type} (what : Obs → Option α) (trace : List Obs) : List α := (trace.filterMap what).reverse

def Obs.accepted? : Obs → Option Request
  | .answered req .queued => some req
  | _ => none

def Obs.raised? : Obs → Option Event
  | .raised event => some event
  | _ => none

def Obs.sent? : Obs → Option MessageBytes
  | .sent _ _ frame => some frame
  | _ => none

/-- Everything the pack has put on the line. -/
def Pack.spoken (pack : Pack) (trace : List Obs) : List UInt8 := (told Obs.sent? trace).flatMap pack.response

/-! ### The two ends and the line -/

/-- A session, and how much of what the pack has said has reached it. -/
structure Ends (capacity : ℕ+) where
  world : World capacity
  heard : ℕ := 0

/-- The caller asks, time passes, or some bytes come off the line. -/
inductive Move
  | poll (method : Poll) (fn : Option Ptr) (ctx : Ptr)
  | tick (nowMs : UInt32)
  | deliver (n : ℕ)

/-- The call that a move makes, with these bytes on the line. -/
def Move.call (line : List UInt8) : Move → Call
  | .poll method fn ctx => .poll method fn ctx
  | .tick nowMs => .tick nowMs
  | .deliver n => .feed (line.take n)

/-- How many bytes a move takes off the line. -/
def Move.taken (line : List UInt8) : Move → ℕ
  | .deliver n => (line.take n).length
  | _ => 0

/-- The move is a tick that finds the deadline passed. -/
def Move.late (w : World capacity) : Move → Bool
  | .tick nowMs => w.overdueAt nowMs
  | _ => false

namespace Ends

variable (pack : Pack)

/-- What is on its way to the session. -/
def line (s : Ends capacity) : List UInt8 := (pack.spoken (seen s.world.log)).drop s.heard

def move (s : Ends capacity) (m : Move) : Ends capacity where
  world := call (.seeing listening) s.world (m.call (s.line pack))
  heard := s.heard + m.taken (s.line pack)

def moves (s : Ends capacity) (ms : List Move) : Ends capacity := ms.foldl (move pack) s

/-- No tick finds the deadline passed. -/
def inTime (s : Ends capacity) : List Move → Bool
  | [] => true
  | m :: rest => !m.late s.world && inTime (s.move pack m) rest

end Ends

/-! ### Lists of requests -/

theorem told_cons {α : Type} (what : Obs → Option α) (obs : Obs) (trace : List Obs) :
    told what (obs :: trace) = told what trace ++ (what obs).toList := by
  unfold told
  rw [List.filterMap_cons]
  cases what obs with
  | none => exact (List.append_nil _).symm
  | some a => exact List.reverse_cons

theorem told_append {α : Type} (what : Obs → Option α) (later trace : List Obs) :
    told what (later ++ trace) = told what trace ++ told what later := by
  unfold told
  rw [List.filterMap_append, List.reverse_append]

theorem told_past {α : Type} (what : Obs → Option α) {past trace : List Obs} (h : past <:+ trace) :
    told what past <+: told what trace := by
  obtain ⟨later, rfl⟩ := h
  rw [told_append]
  exact List.prefix_append _ _

theorem Pack.spoken_append (pack : Pack) (later trace : List Obs) :
    pack.spoken (later ++ trace) = pack.spoken trace ++ pack.spoken later := by
  unfold Pack.spoken
  rw [told_append, List.flatMap_append]

theorem learn_multi {setup : Setup} {id : DataId} (hmulti : (multiframeInfo id).multi = true) (data : DataBytes) :
    setup.learn id data = setup := by
  unfold Setup.learn
  rw [if_neg, if_neg]
  · rintro rfl
    exact absurd hmulti (by decide)
  · rintro rfl
    exact absurd hmulti (by decide)

/-- The same at another time. -/
def Setup.clocked (setup : Setup) (nowMs : UInt32) : Setup := { setup with nowMs }

/-- Learning is about the counts, and whatever the time. -/
theorem learn_keeps (setup : Setup) (id : DataId) (data : DataBytes) (nowMs : UInt32) :
    (setup.learn id data).hostAddress = setup.hostAddress ∧ (setup.learn id data).bmsAddress = setup.bmsAddress ∧
      (setup.learn id data).txFn = setup.txFn ∧
      (setup.clocked nowMs).learn id data = (setup.learn id data).clocked nowMs := by
  unfold Setup.learn Setup.clocked
  split_ifs <;> exact ⟨rfl, rfl, rfl, rfl⟩

/-- What is known of the pack after some requests. -/
def Setup.learned (setup : Setup) (pack : Pack) (reqs : List Request) : Setup :=
  reqs.foldl (fun setup req => setup.after pack req) setup

section Requests

variable {pack : Pack} {setup : Setup} {req : Request}

theorem after_of_reply {data : DataBytes} {rest : List DataBytes} (h : pack.reply setup req = data :: rest) :
    setup.after pack req = setup.learn req.id data := by
  unfold Setup.after
  rw [h]
  rfl

theorem after_multi (hmulti : (multiframeInfo req.id).multi = true) : setup.after pack req = setup := by
  unfold Setup.after
  cases (pack.reply setup req).head? with
  | none => rfl
  | some data => exact learn_multi hmulti data

theorem after_keeps (pack : Pack) (setup : Setup) (req : Request) :
    (setup.after pack req).hostAddress = setup.hostAddress ∧ (setup.after pack req).bmsAddress = setup.bmsAddress ∧
      (setup.after pack req).txFn = setup.txFn := by
  unfold Setup.after
  cases (pack.reply setup req).head? with
  | none => exact ⟨rfl, rfl, rfl⟩
  | some data =>
      obtain ⟨hhost, hbms, htx, -⟩ := learn_keeps setup req.id data 0
      exact ⟨hhost, hbms, htx⟩

theorem learned_keeps (pack : Pack) (setup : Setup) (reqs : List Request) :
    (setup.learned pack reqs).hostAddress = setup.hostAddress ∧ (setup.learned pack reqs).bmsAddress = setup.bmsAddress ∧
      (setup.learned pack reqs).txFn = setup.txFn := by
  induction reqs generalizing setup with
  | nil => exact ⟨rfl, rfl, rfl⟩
  | cons req rest ih =>
      obtain ⟨hhost, hbms, htx⟩ := after_keeps pack setup req
      obtain ⟨hhost', hbms', htx'⟩ := ih (setup.after pack req)
      exact ⟨hhost'.trans hhost, hbms'.trans hbms, htx'.trans htx⟩

theorem learned_concat (pack : Pack) (setup : Setup) (reqs : List Request) (req : Request) :
    setup.learned pack (reqs ++ [req]) = (setup.learned pack reqs).after pack req := List.foldl_append

theorem conversation_append (pack : Pack) (setup : Setup) (reqs more : List Request) :
    conversation pack setup (reqs ++ more) = conversation pack setup reqs ++ conversation pack (setup.learned pack reqs) more := by
  induction reqs generalizing setup with
  | nil => rfl
  | cons req rest ih =>
      rw [List.cons_append, conversation, conversation, ih, List.append_assoc]
      rfl

theorem fluent_append {reqs more : List Request} (h : Fluent pack setup (reqs ++ more)) :
    Fluent pack setup reqs ∧ Fluent pack (setup.learned pack reqs) more := by
  induction reqs generalizing setup with
  | nil => exact ⟨trivial, h⟩
  | cons req rest ih =>
      obtain ⟨hrest, hmore⟩ := ih h.2
      exact ⟨⟨h.1, hrest⟩, hmore⟩

theorem Fluent.earlier {reqs more : List Request} (h : Fluent pack setup more) (hearlier : reqs <+: more) :
    Fluent pack setup reqs := by
  obtain ⟨rest, rfl⟩ := hearlier
  exact (fluent_append h).1

theorem Whole.ne_nil {items : ℕ} {reply : List DataBytes} (h : Whole req items reply) : reply ≠ [] := by
  cases hstream : (multiframeInfo req.id).streaming with
  | true =>
      obtain ⟨pages, last, rfl, -⟩ := h.streamed hstream
      exact List.append_ne_nil_of_right_ne_nil _ (List.cons_ne_nil _ _)
  | false =>
      refine List.ne_nil_of_length_pos ?_
      cases hmulti : (multiframeInfo req.id).multi with
      | true => exact (h.paged ⟨hmulti, hstream⟩).1
      | false => exact (h.single hmulti).symm ▸ Nat.one_pos

/-- Another message of a stream. -/
theorem records_concat (messages : List DataBytes) (data : DataBytes) :
    records (messages ++ [data]) =
      records messages ++ if (left 4 [] messages).length + 1 = 4 then [recordEvent (left 4 [] messages ++ [data])] else [] := by
  unfold records
  rw [deal_append, deal]
  split_ifs
  · rw [List.filterMap_append, List.map_append]
    rfl
  · rw [List.filterMap_append, List.map_append]
    rfl

theorem records_grow {messages more : List DataBytes} (h : messages <+: more) : records messages <+: records more := by
  obtain ⟨rest, rfl⟩ := h
  unfold records
  rw [deal_append, List.filterMap_append, List.map_append]
  exact List.prefix_append _ _

theorem left_concat (messages : List DataBytes) (data : DataBytes) :
    left 4 [] (messages ++ [data]) =
      if (left 4 [] messages).length + 1 = 4 then [] else left 4 [] messages ++ [data] := by
  rw [left_append, left]
  rfl

end Requests

end Haidi
