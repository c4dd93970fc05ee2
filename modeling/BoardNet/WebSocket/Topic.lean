import BoardNet.FlatJson
import BoardNet.Log

namespace BoardNet.WebSocket

def maxSubscriptions : Nat := 4

def maxFilters : Nat := 2

def topicCapacity : Nat := 32

def filterKeyCapacity : Nat := 12

def filterValueCapacity : Nat := 32

/-- A property of an event, or what a filter asks of one. -/
structure Property where
  key : String
  value : String
  deriving DecidableEq, Repr

structure Subscription where
  topic : String
  filters : List Property := []
  deriving DecidableEq, Repr

namespace Subscription

/-- A subscription without filters; a topic is neither empty nor too long. -/
def ofTopic? (topic : String) : Option Subscription :=
  if topic ≠ "" ∧ topic.utf8ByteSize ≤ topicCapacity then some { topic } else none

/-- Adds a filter, if it is not too long and there is space. -/
def withFilter? (subscription : Subscription) (filter : Property) : Option Subscription :=
  if filter.key.utf8ByteSize ≤ filterKeyCapacity ∧
      filter.value.utf8ByteSize ≤ filterValueCapacity ∧
      subscription.filters.length < maxFilters then
    some { subscription with filters := subscription.filters ++ [filter] }
  else none

/-- Events of this topic with these properties are wanted. -/
def wants (subscription : Subscription) (topic : String) (properties : List Property) : Bool :=
  subscription.topic = topic && subscription.filters.all fun filter => filter ∈ properties

/-- Adds the filters that can be added, and says of each whether it was. -/
def withFilters (subscription : Subscription) :
    List Property → List Bool × Subscription
  | [] => ([], subscription)
  | filter :: filters =>
    match subscription.withFilter? filter with
    | some narrowed =>
      let (added, narrowest) := narrowed.withFilters filters
      (true :: added, narrowest)
    | none =>
      let (added, narrowed) := subscription.withFilters filters
      (false :: added, narrowed)

end Subscription

/-- The subscriptions of a client, in the order in which they were made. -/
structure Subscriptions where
  toList : List Subscription := []
  deriving DecidableEq, Repr

/-- What became of a message that asked for a change of subscriptions. -/
inductive CommandResult where
  | subscribed
  | unsubscribed
  | rejected
  deriving DecidableEq, Repr

namespace Subscriptions

def isEmpty (subscriptions : Subscriptions) : Bool := subscriptions.toList.isEmpty

def length (subscriptions : Subscriptions) : Nat := subscriptions.toList.length

/-- Adds a subscription, unless there is no space. One that is there already is not added twice. -/
def add (subscriptions : Subscriptions) (subscription : Subscription) : Bool × Subscriptions :=
  if subscription ∈ subscriptions.toList then (true, subscriptions)
  else if subscriptions.length < maxSubscriptions then
    (true, ⟨subscriptions.toList ++ [subscription]⟩)
  else (false, subscriptions)

/-- Adds a subscription to a topic with some filters, if there can be one. Answers which filters it
took, and whether it was added. -/
def addFiltered (subscriptions : Subscriptions) (topic : String) (filters : List Property) :
    Option (List Bool × Bool) × Subscriptions :=
  match Subscription.ofTopic? topic with
  | none => (none, subscriptions)
  | some plain =>
    let (taken, subscription) := plain.withFilters filters
    let (added, extended) := subscriptions.add subscription
    (some (taken, added), extended)

/-- Drops every subscription to a topic, and counts them. -/
def remove (subscriptions : Subscriptions) (topic : String) : Nat × Subscriptions :=
  let kept : Subscriptions := ⟨subscriptions.toList.filter (·.topic ≠ topic)⟩
  (subscriptions.length - kept.length, kept)

/-- Some subscription wants events of this topic with these properties. -/
def wants (subscriptions : Subscriptions) (topic : String) (properties : List Property) : Bool :=
  subscriptions.toList.any (·.wants topic properties)

/-- Narrows a subscription by what a message asks for, and records what cannot be had. -/
def narrow (subscription : Subscription) : List (String × String) → Logged Subscription
  | [] => return subscription
  | (key, value) :: filters => do
    match subscription.withFilter? ⟨key, value⟩ with
    | some narrowed => narrow narrowed filters
    | none =>
      .note .warn s!"ws: filter {key}={value} on '{subscription.topic}' ignored"
      narrow subscription filters

/-- Subscribes to a topic with the filters that a message states. -/
def subscribe (subscriptions : Subscriptions) (topic message : String) :
    Logged (CommandResult × Subscriptions) := do
  match Subscription.ofTopic? topic with
  | none =>
    .note .warn s!"ws: bad topic '{topic}'"
    return (.rejected, subscriptions)
  | some plain =>
    let filters := match FlatJson.object? message "props" with
      | some props => FlatJson.pairs props
      | none => []
    let subscription ← narrow plain filters
    match subscriptions.add subscription with
    | (true, extended) =>
      .note .debug s!"ws: subscribed to '{topic}'"
      return (.subscribed, extended)
    | (false, same) =>
      .note .warn s!"ws: no free subscription slot for '{topic}'"
      return (.rejected, same)

/-- Does what a message asks for, if it asks for a change of subscriptions: such a message has an
action, `sub` or `unsub`, and a topic. -/
def apply (subscriptions : Subscriptions) (message : String) :
    Logged (Option CommandResult × Subscriptions) := do
  match FlatJson.string? message "action", FlatJson.string? message "topic" with
  | some action, some topic =>
    if action = "sub" then
      let (result, changed) ← subscriptions.subscribe topic message
      return (some result, changed)
    else if action = "unsub" then return (some .unsubscribed, (subscriptions.remove topic).2)
    else return (none, subscriptions)
  | _, _ => return (none, subscriptions)

end Subscriptions

end BoardNet.WebSocket
