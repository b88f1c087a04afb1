import Switchboard.Platform

/-!
# Variants of messages

A message is of one of ten variants, each the pair of a platform and a kind. The variant fixes the
type tag of the message and the endpoint that it is sent to by default.
-/
namespace Switchboard

inductive Kind
  | comment
  | superchat
  | gift
  | bits
  | subscription
  | raid
  deriving DecidableEq

namespace Kind

def name : Kind → String
  | .comment => "comment"
  | .superchat => "superchat"
  | .gift => "gift"
  | .bits => "bits"
  | .subscription => "subscription"
  | .raid => "raid"

end Kind

/-- The kinds of messages of the last platform. -/
inductive TwitchKind
  | comment
  | bits
  | subscription
  | raid
  deriving DecidableEq

inductive Variant
  | youtubeComment
  | youtubeSuperchat
  | bilibiliComment
  | bilibiliGift
  | niconicoComment
  | niconicoGift
  | twitch (kind : TwitchKind)
  deriving DecidableEq

def TwitchKind.kind : TwitchKind → Kind
  | .comment => .comment
  | .bits => .bits
  | .subscription => .subscription
  | .raid => .raid

namespace Variant

def all : List Variant :=
  [.youtubeComment, .youtubeSuperchat, .bilibiliComment, .bilibiliGift, .niconicoComment,
   .niconicoGift, .twitch .comment, .twitch .bits, .twitch .subscription, .twitch .raid]

def platform : Variant → Platform
  | .youtubeComment => .youtube
  | .youtubeSuperchat => .youtube
  | .bilibiliComment => .bilibili
  | .bilibiliGift => .bilibili
  | .niconicoComment => .niconico
  | .niconicoGift => .niconico
  | .twitch _ => .twitch

def kind : Variant → Kind
  | .youtubeComment => .comment
  | .youtubeSuperchat => .superchat
  | .bilibiliComment => .comment
  | .bilibiliGift => .gift
  | .niconicoComment => .comment
  | .niconicoGift => .gift
  | .twitch k => k.kind

/-- The type tag of the messages of a variant. -/
def tag : Variant → String
  | .youtubeComment => "youtube"
  | .youtubeSuperchat => "youtube-super"
  | .bilibiliComment => "bilibili"
  | .bilibiliGift => "bilibili-gift"
  | .niconicoComment => "niconico"
  | .niconicoGift => "niconico-gift"
  | .twitch .comment => "twitch"
  | .twitch .bits => "twitch-bits"
  | .twitch .subscription => "twitch-subscription"
  | .twitch .raid => "twitch-raid"

/-- The last part of the default endpoint. -/
def endpointName (v : Variant) : String :=
  match v.kind with
  | .superchat => "super"
  | k => k.name

/-- The endpoint that messages of a variant are sent to by default. -/
def endpoint (v : Variant) : String := "/onecomme/" ++ v.platform.name ++ "/" ++ v.endpointName

theorem mem_all (v : Variant) : v ∈ all := by
  cases v with
  | twitch kind => cases kind <;> simp [all]
  | _ => simp [all]

end Variant

end Switchboard
