import BoardNet.Proofs.Text.Objects
import BoardNet.WebSocket.Topic

/-!
Commands of clients as the texts that they are: an action, a topic and properties, in any order.
What is carried out is what stands first under these names, so a command is carried out as it is
meant unless its properties stand before its action or its topic and have a member of that name.
-/

namespace BoardNet.WebSocket

open FlatJson

inductive Verb where
  | sub
  | unsub
  deriving DecidableEq, Repr

def Verb.text : Verb → Content
  | .sub => ⟨"sub", by decide⟩
  | .unsub => ⟨"unsub", by decide⟩

/-- The filters that some properties ask for. Only texts are filters. -/
def filtersOf (properties : List (Member Plain)) : List Property :=
  (properties.filterMap Member.text?).map fun (key, value) => ⟨key.text, value.text⟩

/-- A filter is within the limits of a subscription. -/
def Property.Fits (filter : Property) : Prop :=
  filter.key.utf8ByteSize ≤ filterKeyCapacity ∧ filter.value.utf8ByteSize ≤ filterValueCapacity

instance (filter : Property) : Decidable filter.Fits := inferInstanceAs (Decidable (_ ∧ _))

/-- A command. Its topic and the filters that it asks for are within the limits of a
subscription. -/
structure Command where
  verb : Verb
  topic : Content
  properties : Option (List (Member Plain))
  named : topic.text ≠ ""
  short : topic.text.utf8ByteSize ≤ topicCapacity
  few : (filtersOf (properties.getD [])).length ≤ maxFilters
  fit : ∀ filter ∈ filtersOf (properties.getD []), filter.Fits

namespace Command

def subscription (command : Command) : Subscription :=
  ⟨command.topic.text, filtersOf (command.properties.getD [])⟩

def actionKey : Content := ⟨"action", by decide⟩

def topicKey : Content := ⟨"topic", by decide⟩

def propsKey : Content := ⟨"props", by decide⟩

/-- The members that make up a command, in one of their orders. -/
def entries (command : Command) : List (Content × Value) :=
  [(actionKey, .plain (.text command.verb.text)), (topicKey, .plain (.text command.topic))] ++
    (command.properties.map fun properties => (propsKey, Value.object properties)).toList

/-- These members, in this order and with these blanks, are a command. -/
def Writes (command : Command) (members : List (Member Value)) : Prop :=
  (members.map fun member => (member.key, member.value)).Perm command.entries

/-- What a command is to do: the answer, and the subscriptions afterwards. -/
def Done (command : Command) (before : Subscriptions)
    (done : Option CommandResult × Subscriptions) : Prop :=
  match command.verb with
  | .sub =>
    (command.subscription ∈ before.toList → done = (some .subscribed, before)) ∧
    (command.subscription ∉ before.toList → before.length < maxSubscriptions →
      done = (some .subscribed, ⟨before.toList ++ [command.subscription]⟩))
  | .unsub => done = (some .unsubscribed,
      ⟨before.toList.filter (·.topic ≠ command.topic.text)⟩)

def message (members : List (Member Value)) : String :=
  String.ofList (written Value.chars members)

/-- No property with this key stands before the member with it. -/
def Clear (key : String) (members : List (Member Value)) : Prop :=
  ∀ before member after, members = before ++ member :: after → member.key.text = key →
    ∀ earlier ∈ before, earlier.value.within? key = none

/-- What is heard under a key: the first value with it, if that is a text. -/
def heard (key : String) (members : List (Member Value)) : Option String :=
  (first? key members).bind Value.text?

end Command

namespace Subscriptions

/-- Adds a subscription, unless it is there already or there can be no such subscription. -/
def enter (subscriptions : Subscriptions) (subscription : Subscription) :
    CommandResult × Subscriptions :=
  if subscription.topic = "" ∨ topicCapacity < subscription.topic.utf8ByteSize then
    (.rejected, subscriptions)
  else if subscription ∈ subscriptions.toList then (.subscribed, subscriptions)
  else if subscriptions.length < maxSubscriptions then
    (.subscribed, ⟨subscriptions.toList ++ [subscription]⟩)
  else (.rejected, subscriptions)

/-- Does what was heard, with these filters. -/
def follow (subscriptions : Subscriptions) (filters : List Property)
    (action topic : Option String) : Option CommandResult × Subscriptions :=
  match action, topic with
  | some action, some topic =>
    if action = "sub" then
      let (result, changed) := subscriptions.enter ⟨topic, filters⟩
      (some result, changed)
    else if action = "unsub" then
      (some .unsubscribed, ⟨subscriptions.toList.filter (·.topic ≠ topic)⟩)
    else (none, subscriptions)
  | _, _ => (none, subscriptions)

section Enter

variable {subscriptions : Subscriptions} {subscription : Subscription}

theorem enter_of_mem (named : subscription.topic ≠ "")
    (short : subscription.topic.utf8ByteSize ≤ topicCapacity)
    (present : subscription ∈ subscriptions.toList) :
    subscriptions.enter subscription = (.subscribed, subscriptions) := by
  rw [enter, if_neg (not_or.mpr ⟨named, Nat.not_lt.mpr short⟩), if_pos present]

theorem enter_of_room (named : subscription.topic ≠ "")
    (short : subscription.topic.utf8ByteSize ≤ topicCapacity)
    (absent : subscription ∉ subscriptions.toList)
    (room : subscriptions.length < maxSubscriptions) :
    subscriptions.enter subscription =
      (.subscribed, ⟨subscriptions.toList ++ [subscription]⟩) := by
  rw [enter, if_neg (not_or.mpr ⟨named, Nat.not_lt.mpr short⟩), if_neg absent, if_pos room]

end Enter

/-- Filters within the limits are all taken. -/
theorem value_narrow (subscription : Subscription) (filters : List Property)
    (few : subscription.filters.length + filters.length ≤ maxFilters)
    (fit : ∀ filter ∈ filters, filter.Fits) :
    (narrow subscription (filters.map fun filter => (filter.key, filter.value))).value =
      { subscription with filters := subscription.filters ++ filters } := by
  induction filters generalizing subscription with
  | nil => simp [narrow]
  | cons filter filters ih =>
    obtain ⟨⟨short, small⟩, others⟩ := List.forall_mem_cons.mp fit
    have room : subscription.filters.length < maxFilters := by
      simp only [List.length_cons] at few
      omega
    have taken : subscription.withFilter? filter =
        some { subscription with filters := subscription.filters ++ [filter] } :=
      if_pos ⟨short, small, room⟩
    have fewer : (subscription.filters ++ [filter]).length + filters.length ≤ maxFilters := by
      simp only [List.length_append, List.length_cons, List.length_nil] at few ⊢
      omega
    rw [List.map_cons, narrow, taken]
    dsimp only
    rw [ih _ fewer others]
    simp

theorem value_subscribe (subscriptions : Subscriptions) (topic message : String)
    {props : Option String} {filters : List Property} (found : object? message "props" = props)
    (stated : (props.map pairs).getD [] = filters.map fun filter => (filter.key, filter.value))
    (few : filters.length ≤ maxFilters) (fit : ∀ filter ∈ filters, filter.Fits) :
    (subscriptions.subscribe topic message).value = subscriptions.enter ⟨topic, filters⟩ := by
  have narrowed := value_narrow ⟨topic, []⟩ filters ((Nat.zero_add _).trans_le few) fit
  rw [List.nil_append, ← stated] at narrowed
  unfold subscribe enter Subscription.ofTopic?
  by_cases bad : topic = "" ∨ topicCapacity < topic.utf8ByteSize
  · have refused : ¬(topic ≠ "" ∧ topic.utf8ByteSize ≤ topicCapacity) := by
      rintro ⟨named, short⟩
      exact bad.elim named (Nat.not_lt.mpr short)
    rw [if_pos bad, if_neg refused]
    rfl
  · obtain ⟨named, short⟩ := not_or.mp bad
    rw [if_neg bad, if_pos ⟨named, Nat.le_of_not_lt short⟩, found]
    cases props
    all_goals
      rw [Logged.value_bind]
      simp only [Option.map_none, Option.map_some, Option.getD_none, Option.getD_some] at narrowed ⊢
      rw [narrowed, add]
      split_ifs <;> rfl

/-- What was heard, by what was done without any subscriptions before. -/
theorem heard_of_subscribed {filters : List Property} {action topic : Option String}
    {own : String}
    (done : follow {} filters action topic = (some .subscribed, ⟨[⟨own, filters⟩]⟩)) :
    action = some "sub" ∧ topic = some own := by
  unfold follow at done
  split at done
  · next action topic =>
    split_ifs at done with sub unsub
    · have entered : (enter {} ⟨topic, filters⟩).2.toList = [⟨own, filters⟩] :=
        congrArg (·.2.toList) done
      unfold enter at entered
      split_ifs at entered
      all_goals cases entered
      exact ⟨congrArg some sub, rfl⟩
    · cases done
    · cases done
  · cases done

/-- What was heard, by what was done with the one subscription that was there before. -/
theorem heard_of_unsubscribed {filters : List Property} {action topic : Option String}
    {own : String}
    (done : follow ⟨[⟨own, []⟩]⟩ filters action topic = (some .unsubscribed, {})) :
    action = some "unsub" ∧ topic = some own := by
  unfold follow at done
  split at done
  · next action topic =>
    split_ifs at done with sub unsub
    · have answer : some (enter ⟨[⟨own, []⟩]⟩ ⟨topic, filters⟩).1 = some .unsubscribed :=
        congrArg Prod.fst done
      unfold enter at answer
      split_ifs at answer <;> cases answer
    · have emptied : [(⟨own, []⟩ : Subscription)].filter (·.topic ≠ topic) = [] :=
        congrArg (·.2.toList) done
      have same : own = topic := by simpa using emptied
      exact ⟨congrArg some unsub, congrArg some same.symm⟩
    · cases done
  · cases done

end Subscriptions

namespace Command

variable {command : Command} {members : List (Member Value)}

/-- The members of a command have different keys, in whatever order they stand. -/
theorem nodup_keys (writes : command.Writes members) : (members.map (·.key.text)).Nodup := by
  have keys : (command.entries.map (·.1.text)).Nodup := by
    unfold entries
    cases command.properties <;> simp [actionKey, topicKey, propsKey]
  have same := writes.map (·.1.text)
  rw [List.map_map] at same
  exact same.nodup_iff.mpr keys

/-- A member is found before which no property has its key. -/
theorem first?_of_clear {key : Content} {value : Value} (writes : command.Writes members)
    (listed : (key, value) ∈ command.entries) (clear : Clear key.text members) :
    first? key.text members = some value := by
  obtain ⟨member, inside, same⟩ := List.mem_map.mp (writes.mem_iff.mpr listed)
  cases same
  obtain ⟨before, after, rfl⟩ := List.append_of_mem inside
  have distinct := nodup_keys writes
  rw [List.map_append, List.map_cons, List.nodup_append] at distinct
  have missed : before.findSome? (fun earlier =>
      under? member.key.text earlier.key earlier.value) = none := by
    refine List.findSome?_eq_none_iff.mpr fun earlier ahead => ?_
    have other : earlier.key.text ≠ member.key.text :=
      distinct.2.2 _ (List.mem_map_of_mem ahead) _ List.mem_cons_self
    rw [under?, if_neg other, clear before member after rfl rfl earlier ahead]
    rfl
  rw [first?, List.findSome?_append, missed, Option.none_or, List.findSome?_cons, under?,
    if_pos rfl]

/-- The properties are found wherever they stand: nothing else has their key. -/
theorem first?_props (writes : command.Writes members) :
    first? "props" members = command.properties.map .object := by
  have named := writes.filterMap fun entry => under? "props" entry.1 entry.2
  have own : (command.entries.filterMap fun entry => under? "props" entry.1 entry.2) =
      (command.properties.map .object).toList := by
    unfold entries
    cases command.properties <;> rfl
  rw [own, List.filterMap_map] at named
  rw [first?, ← List.head?_filterMap]
  cases stated : command.properties with
  | none =>
    rw [stated] at named
    exact congrArg List.head? (List.perm_nil.mp named)
  | some properties =>
    rw [stated] at named
    exact congrArg List.head? (List.perm_singleton.mp named)

theorem value_apply (writes : command.Writes members) (subscriptions : Subscriptions) :
    (subscriptions.apply (message members)).value =
      subscriptions.follow command.subscription.filters (heard "action" members)
        (heard "topic" members) := by
  have action : string? (message members) "action" = heard "action" members :=
    string?_written (by decide) members
  have topic : string? (message members) "topic" = heard "topic" members :=
    string?_written (by decide) members
  have props : object? (message members) "props" = _ := object?_written (by decide) members
  rw [first?_props writes] at props
  have stated : (((command.properties.map .object).bind Value.object?).map pairs).getD [] =
      command.subscription.filters.map fun filter => (filter.key, filter.value) := by
    unfold subscription
    cases command.properties with
    | none => rfl
    | some properties =>
      refine (pairs_written properties).trans ?_
      simp [filtersOf, Function.comp_def]
  unfold Subscriptions.apply Subscriptions.follow
  rw [action, topic]
  rcases heard "action" members with _ | action
  · rfl
  rcases heard "topic" members with _ | topic
  · rfl
  dsimp only
  by_cases sub : action = "sub"
  · have subscribed :=
      subscriptions.value_subscribe topic (message members) props stated command.few command.fit
    rw [if_pos sub, if_pos sub, Logged.value_bind, subscribed]
    rfl
  · rw [if_neg sub, if_neg sub]
    split <;> rfl

/-- A command that is heard as it is meant is carried out. -/
theorem done_follow (command : Command) (subscriptions : Subscriptions) :
    command.Done subscriptions (subscriptions.follow command.subscription.filters
      (some command.verb.text.text) (some command.topic.text)) := by
  unfold Done
  cases command.verb with
  | sub =>
    have entered : subscriptions.follow command.subscription.filters (some "sub")
        (some command.topic.text) =
          (some (subscriptions.enter command.subscription).1,
            (subscriptions.enter command.subscription).2) := rfl
    constructor
    · intro present
      rwa [Subscriptions.enter_of_mem command.named command.short present] at entered
    · intro absent room
      rwa [Subscriptions.enter_of_room command.named command.short absent room] at entered
  | unsub => rfl

theorem done_iff_heard :
    (∀ subscriptions : Subscriptions, command.Done subscriptions (subscriptions.follow
        command.subscription.filters (heard "action" members) (heard "topic" members))) ↔
      heard "action" members = some command.verb.text.text ∧
        heard "topic" members = some command.topic.text := by
  constructor
  · intro done
    cases same : command.verb with
    | sub =>
      have first := done {}
      rw [Done, same] at first
      exact Subscriptions.heard_of_subscribed (first.2 List.not_mem_nil (by decide))
    | unsub =>
      have alone := done ⟨[⟨command.topic.text, []⟩]⟩
      rw [Done, same] at alone
      exact Subscriptions.heard_of_unsubscribed (alone.trans (by simp))
  · rintro ⟨action, topic⟩ subscriptions
    rw [action, topic]
    exact command.done_follow subscriptions

/-- So a command is carried out in any order in which no property that is called like its action or
its topic stands before these. -/
theorem done_of_clear (writes : command.Writes members) (action : Clear "action" members)
    (topic : Clear "topic" members) (subscriptions : Subscriptions) :
    command.Done subscriptions (subscriptions.apply (message members)).value := by
  have asked : (actionKey, .plain (.text command.verb.text)) ∈ command.entries :=
    List.mem_cons_self
  have named : (topicKey, .plain (.text command.topic)) ∈ command.entries :=
    List.mem_cons_of_mem _ List.mem_cons_self
  have verb : first? "action" members = _ := first?_of_clear writes asked action
  have own : first? "topic" members = _ := first?_of_clear writes named topic
  rw [value_apply writes, heard, heard, verb, own]
  exact command.done_follow subscriptions

/-- A message with the members of a command does what is heard under `action` and `topic`, with the
filters of the command, wherever its properties stand. The command is carried out, whatever
subscriptions there are, just when its own action and its own topic are what is heard. -/
theorem done_iff (writes : command.Writes members) :
    (∀ subscriptions : Subscriptions, (subscriptions.apply (message members)).value =
      subscriptions.follow command.subscription.filters (heard "action" members)
        (heard "topic" members)) ∧
    ((∀ subscriptions : Subscriptions,
        command.Done subscriptions (subscriptions.apply (message members)).value) ↔
      heard "action" members = some command.verb.text.text ∧
        heard "topic" members = some command.topic.text) := by
  refine ⟨value_apply writes, ?_⟩
  simp only [value_apply writes]
  exact done_iff_heard

def topicTwice : Command where
  verb := .sub
  topic := ⟨"temp", by decide⟩
  properties := some [{ key := ⟨"topic", by decide⟩, value := .text ⟨"x", by decide⟩ }]
  named := by decide
  short := by decide
  few := by decide
  fit := by decide

def propsFirst : List (Member Value) := topicTwice.entries.rotateRight.map fun entry =>
  { key := entry.1, value := entry.2 }

theorem property_heard_as_topic :
    topicTwice.Writes propsFirst ∧
      message propsFirst =
        "\x7b\"props\":\x7b\"topic\":\"x\"\x7d,\"action\":\"sub\",\"topic\":\"temp\"\x7d" ∧
      (({} : Subscriptions).apply (message propsFirst)).value =
        (some .subscribed, ⟨[⟨"x", [⟨"topic", "x"⟩]⟩]⟩) ∧
      ¬∀ subscriptions : Subscriptions,
        topicTwice.Done subscriptions (subscriptions.apply (message propsFirst)).value := by
  have writes : topicTwice.Writes propsFirst := by
    unfold Writes
    decide +kernel
  obtain ⟨follows, carried⟩ := done_iff writes
  have unheard : heard "topic" propsFirst = some "x" := by decide +kernel
  refine ⟨writes, by decide +kernel, (follows {}).trans (by decide +kernel), ?_⟩
  rw [carried, unheard]
  decide

end Command

end BoardNet.WebSocket
