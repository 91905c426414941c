import ManyTier.Node.Network

/-! Multicast subscriptions: which peers listen to which group of a network. -/
namespace ManyTier

structure Subscriber where
  ztAddress : ByteVec 5
  subscribedAt : UInt64
  deriving DecidableEq

structure MulticastManager where
  subscriptions : List (MulticastGroup × List Subscriber)
  deriving DecidableEq

/-- ARP goes to the broadcast MAC, with its ethertype as the group's discriminator. -/
def arpMulticastGroup (networkId : UInt64) : MulticastGroup :=
  ⟨networkId, Ethernet.broadcastMac, Ethernet.ethertypeArp.toUInt32⟩

namespace MulticastManager

def new : MulticastManager := ⟨[]⟩

/-- A subscriber renewed, or added at the end. -/
def renew (ztAddress : ByteVec 5) (now : UInt64) : List Subscriber → List Subscriber
  | [] => [⟨ztAddress, now⟩]
  | s :: rest =>
    if s.ztAddress = ztAddress then { s with subscribedAt := now } :: rest
    else s :: renew ztAddress now rest

/-- The group's subscribers updated; a group not yet known is added at the end. -/
def subscribeIn (group : MulticastGroup) (ztAddress : ByteVec 5) (now : UInt64) :
    List (MulticastGroup × List Subscriber) → List (MulticastGroup × List Subscriber)
  | [] => [(group, renew ztAddress now [])]
  | (key, subs) :: rest =>
    if key = group then (key, renew ztAddress now subs) :: rest
    else (key, subs) :: subscribeIn group ztAddress now rest

def subscribe (m : MulticastManager) (group : MulticastGroup) (ztAddress : ByteVec 5) (now : UInt64) :
    MulticastManager :=
  ⟨subscribeIn group ztAddress now m.subscriptions⟩

/-- Each group's subscribers filtered, and empty groups dropped. -/
def retain (m : MulticastManager) (keep : MulticastGroup → Subscriber → Bool) : MulticastManager :=
  ⟨(m.subscriptions.map fun e => (e.1, e.2.filter (keep e.1))).filter fun e => ! e.2.isEmpty⟩

/-- On one network, a peer's subscriptions become exactly the groups it lists. -/
def replaceSubscriptions (m : MulticastManager) (networkId : UInt64) (ztAddress : ByteVec 5)
    (groups : List MulticastGroup) (now : UInt64) : MulticastManager :=
  let kept := m.retain fun key s =>
    key.networkId ≠ networkId || groups.contains key || s.ztAddress ≠ ztAddress
  groups.foldl (fun m group => m.subscribe group ztAddress now) kept

def unsubscribeAll (m : MulticastManager) (ztAddress : ByteVec 5) : MulticastManager :=
  m.retain fun _ s => s.ztAddress ≠ ztAddress

def expireOld (m : MulticastManager) (now maxAge : UInt64) : MulticastManager :=
  m.retain fun _ s => satSub now s.subscribedAt ≤ maxAge

def subscribersOf (m : MulticastManager) (group : MulticastGroup) : List Subscriber :=
  ((m.subscriptions.find? fun e => e.1 = group).map Prod.snd).getD []

def getSubscribers (m : MulticastManager) (group : MulticastGroup) (limit : Nat) : List (ByteVec 5) :=
  ((m.subscribersOf group).take limit).map Subscriber.ztAddress

def getReplicationTargets (m : MulticastManager) (group : MulticastGroup) (exclude : ByteVec 5)
    (limit : Nat) : List (ByteVec 5) :=
  (((m.subscribersOf group).filter fun s => s.ztAddress ≠ exclude).take limit).map
    Subscriber.ztAddress

def groupsForSubscriber (m : MulticastManager) (networkId : UInt64) (ztAddress : ByteVec 5) :
    List MulticastGroup :=
  (m.subscriptions.filter fun e =>
    e.1.networkId = networkId && e.2.any fun s => s.ztAddress = ztAddress).map Prod.fst

end MulticastManager

end ManyTier
