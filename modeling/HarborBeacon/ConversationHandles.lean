import HarborBeacon.ConversationState
import HarborBeacon.TextEncoding

/-!
The handles of conversations. A turn without a handle of its own gets one that is the hash of five
fields with bars between them. Bars inside of the fields are not told apart from those, so two
turns get one handle exactly if their fields, cut at every bar, leave the same pieces.
-/

namespace HarborBeacon.ConversationHandles

open ConversationState Text TextEncoding

section Model

structure TaskTurnActor where
  userId : String
deriving DecidableEq

structure TaskTurnConversation where
  handle : Option String
  channel : String
  surface : String
  threadId : String
deriving DecidableEq

structure TaskTurnTransport where
  routeKey : String
deriving DecidableEq

structure TaskTurnEnvelope where
  actor : TaskTurnActor
  conversation : TaskTurnConversation
  transport : TaskTurnTransport
deriving DecidableEq

variable (sha256 : List UInt8 → List UInt8)

def stablePrefixedId (start payload : String) (length : Nat) : String :=
  start ++ String.ofList ((hex (sha256 (utf8 payload))).take length)

def handleFields (envelope : TaskTurnEnvelope) : List String :=
  [envelope.conversation.channel, envelope.conversation.surface, envelope.conversation.threadId,
    envelope.actor.userId, envelope.transport.routeKey]

def handlePayload (envelope : TaskTurnEnvelope) : String :=
  joinTexts "|" (handleFields envelope)

def canonicalConversationHandle (envelope : TaskTurnEnvelope) : String :=
  (nonEmptyString envelope.conversation.handle).getD
    (stablePrefixedId sha256 "conv_" (handlePayload envelope) 24)

def handlePieces (envelope : TaskTurnEnvelope) : List (List Char) :=
  (handleFields envelope).flatMap fun field => field.toList.splitOn '|'

/-- The part of the digest that the handle shows tells two texts apart. -/
def ToldApart (first second : String) : Prop :=
  (hex (sha256 (utf8 first))).take 24 = (hex (sha256 (utf8 second))).take 24 → first = second

end Model

section Separation

variable {sha256 : List UInt8 → List UInt8} {first second : TaskTurnEnvelope}

theorem handlePayload_eq_iff :
    handlePayload first = handlePayload second ↔ handlePieces first = handlePieces second := by
  have hbar : "|".toList = ['|'] := rfl
  have hne : ∀ envelope, (handleFields envelope).map String.toList ≠ [] := fun _ =>
    List.cons_ne_nil _ _
  rw [handlePayload, handlePayload, ← String.toList_inj, joinTexts, joinTexts, hbar,
    String.toList_ofList, String.toList_ofList,
    Words.intercalate_eq_iff (hne first) (hne second), List.flatMap_map, List.flatMap_map]
  rfl

theorem canonicalConversationHandle_of_none (h : nonEmptyString first.conversation.handle = none) :
    canonicalConversationHandle sha256 first =
      stablePrefixedId sha256 "conv_" (handlePayload first) 24 := by
  rw [canonicalConversationHandle, h, Option.getD_none]

theorem stablePrefixedId_eq_iff {start payload other : String}
    (h : ToldApart sha256 payload other) :
    stablePrefixedId sha256 start payload 24 = stablePrefixedId sha256 start other 24 ↔
      payload = other := by
  constructor
  · intro hsame
    rw [stablePrefixedId, stablePrefixedId, ← String.toList_inj, String.toList_append,
      String.toList_append, List.append_cancel_left_eq, String.toList_ofList,
      String.toList_ofList] at hsame
    exact h hsame
  · rintro rfl
    rfl

/-- Two turns without handles of their own that differ in one of the fields get different handles
exactly if their fields leave different pieces between the bars. -/
theorem handles_differ_iff (sha256 : List UInt8 → List UInt8) (first second : TaskTurnEnvelope)
    (hfirst : nonEmptyString first.conversation.handle = none)
    (hsecond : nonEmptyString second.conversation.handle = none)
    (hhash : ToldApart sha256 (handlePayload first) (handlePayload second)) :
    (handleFields first ≠ handleFields second →
        canonicalConversationHandle sha256 first ≠ canonicalConversationHandle sha256 second) ↔
      (handleFields first ≠ handleFields second → handlePieces first ≠ handlePieces second) := by
  rw [canonicalConversationHandle_of_none hfirst, canonicalConversationHandle_of_none hsecond,
    ne_eq, ne_eq, ne_eq, stablePrefixedId_eq_iff hhash, handlePayload_eq_iff]

def chatTurn (userId : String) : TaskTurnEnvelope where
  actor := { userId }
  conversation :=
    { handle := none, channel := "weixin", surface := "harborgate", threadId := "t-1" }
  transport := { routeKey := "gw" }

/-- The digests of the payloads of two users' turns. -/
def chatDigest (bytes : List UInt8) : List UInt8 :=
  if bytes = utf8 (handlePayload (chatTurn "u-1")) then
    [12, 159, 151, 88, 15, 12, 84, 111, 213, 214, 43, 237, 243, 186, 39, 200, 52, 164, 221, 111,
      249, 74, 87, 7, 45, 196, 160, 59, 149, 131, 43, 111]
  else
    [130, 213, 205, 230, 236, 227, 18, 172, 202, 249, 187, 151, 172, 140, 149, 37, 243, 142, 64,
      115, 121, 122, 32, 127, 182, 9, 120, 163, 180, 105, 154, 190]

theorem chat_handles_differ_iff :
    (handleFields (chatTurn "u-1") ≠ handleFields (chatTurn "u-2") →
        canonicalConversationHandle chatDigest (chatTurn "u-1") ≠
          canonicalConversationHandle chatDigest (chatTurn "u-2")) ↔
      (handleFields (chatTurn "u-1") ≠ handleFields (chatTurn "u-2") →
        handlePieces (chatTurn "u-1") ≠ handlePieces (chatTurn "u-2")) := by
  have hapart : (hex (chatDigest (utf8 (handlePayload (chatTurn "u-1"))))).take 24 ≠
      (hex (chatDigest (utf8 (handlePayload (chatTurn "u-2"))))).take 24 := by decide
  exact handles_differ_iff chatDigest (chatTurn "u-1") (chatTurn "u-2") rfl rfl
    fun h => absurd h hapart

/-- A bar inside of a field moves into the next one. -/
theorem shifted_bar_shares_handle : ¬ ∀ (sha256 : List UInt8 → List UInt8)
    (first second : TaskTurnEnvelope), nonEmptyString first.conversation.handle = none →
      nonEmptyString second.conversation.handle = none →
      ToldApart sha256 (handlePayload first) (handlePayload second) →
      handleFields first ≠ handleFields second →
      canonicalConversationHandle sha256 first ≠ canonicalConversationHandle sha256 second := by
  intro hall
  let first : TaskTurnEnvelope :=
    { chatTurn "gw" with transport := { routeKey := "u|x" } }
  let second : TaskTurnEnvelope :=
    { chatTurn "gw|u" with transport := { routeKey := "x" } }
  have hpayload : handlePayload first = handlePayload second := by decide
  refine hall chatDigest first second rfl rfl (fun _ => hpayload) (by decide) ?_
  rw [canonicalConversationHandle_of_none rfl, canonicalConversationHandle_of_none rfl, hpayload]

end Separation

end HarborBeacon.ConversationHandles
