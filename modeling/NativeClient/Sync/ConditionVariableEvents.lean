import NativeClient.Library.LinkedCircle

/-!
# The lists of events

`ConditionVariableEvent` is an element of a circular list with two links, or a
container of such a list.  An element that is in no list is linked to itself.
The operations of the class do on the links what their names say.
-/

namespace NativeClient.Sync

open NativeClient.Library

inductive ConditionVariableEvent where
  | waitingList
  | recyclingList
  | event (handle : Nat)
deriving DecidableEq

def ConditionVariableEvent.handle : ConditionVariableEvent → Nat
  | .event handle => handle
  | _ => 0

abbrev EventLinks := Links ConditionVariableEvent

def EventLinks.create (links : EventLinks) (node : ConditionVariableEvent) :
    EventLinks where
  next := Function.update links.next node node
  prev := Function.update links.prev node node

/-- `IsSingleton`, and `IsEmpty` of a container. -/
def EventLinks.isSingleton (links : EventLinks) (node : ConditionVariableEvent) :
    Bool :=
  links.next node = node

def EventLinks.pushBack (links : EventLinks)
    (list other : ConditionVariableEvent) : EventLinks :=
  let prepared : EventLinks :=
    { next := Function.update links.next other list
      prev := Function.update links.prev other (links.prev list) }
  { next := Function.update prepared.next (prepared.prev list) other
    prev := Function.update prepared.prev list other }

/-- `Extract`, which returns its element. -/
def EventLinks.extract (links : EventLinks) (node : ConditionVariableEvent) :
    EventLinks :=
  if links.isSingleton node then
    links
  else
    let prev := Function.update links.prev (links.next node) (links.prev node)
    let next := Function.update links.next (prev node) (links.next node)
    { next := Function.update next node node
      prev := Function.update prev node node }

def EventLinks.popFront (links : EventLinks) (list : ConditionVariableEvent) :
    ConditionVariableEvent × EventLinks :=
  (links.next list, links.extract (links.next list))

def EventLinks.popBack (links : EventLinks) (list : ConditionVariableEvent) :
    ConditionVariableEvent × EventLinks :=
  (links.prev list, links.extract (links.prev list))

variable {links : EventLinks} {list head node other : ConditionVariableEvent}
  {nodes more front back : List ConditionVariableEvent}

def EventLinks.Lone (links : EventLinks) (node : ConditionVariableEvent) : Prop :=
  Circle links node []

section Create

theorem create_lone : (links.create node).Lone node :=
  ⟨⟨Function.update_self _ _ _, Function.update_self _ _ _⟩,
    List.nodup_singleton node⟩

theorem create_apart
    (circle : Circle links head nodes) (apart : node ∉ head :: nodes) :
    Circle (links.create node) head nodes := by
  refine circle.congr ?_
  intro found member
  have distinct : found ≠ node := fun same => apart (same ▸ member)
  exact ⟨Function.update_of_ne distinct _ _, Function.update_of_ne distinct _ _⟩

end Create

section Push

theorem next_pushBack
    (distinct : list ≠ other) (found : ConditionVariableEvent) :
    (links.pushBack list other).next found =
      if found = links.prev list then other
      else if found = other then list else links.next found := by
  simp only [EventLinks.pushBack, Function.update_apply, if_neg distinct]

theorem prev_pushBack (found : ConditionVariableEvent) :
    (links.pushBack list other).prev found =
      if found = list then other
      else if found = other then links.prev list else links.prev found := by
  simp only [EventLinks.pushBack, Function.update_apply]

theorem pushBack_circle
    (circle : Circle links list nodes) (new : other ∉ list :: nodes) :
    Circle (links.pushBack list other) list (nodes ++ [other]) := by
  obtain ⟨notList, notNode⟩ := List.ne_and_not_mem_of_not_mem_cons new
  obtain ⟨outside, nodup⟩ := List.nodup_cons.mp circle.2
  have last := circle.1.prev_mem
  have lastOld : links.prev list ≠ other := fun same => new (same ▸ last)
  refine ⟨segment_append.mpr ⟨?_, ?_, ?_⟩, ?_⟩
  · refine circle.1.redirect circle.2 ?_ ?_ ?_ ?_
    · rw [next_pushBack (Ne.symm notList), if_pos rfl]
    · rw [prev_pushBack, if_neg notList, if_pos rfl]
    · intro found member inner
      have old : found ≠ other := fun same => new (same ▸ member)
      rw [next_pushBack (Ne.symm notList), if_neg inner, if_neg old]
    · intro found member
      have inner : found ≠ list := fun same => outside (same ▸ member)
      have old : found ≠ other := fun same => notNode (same ▸ member)
      rw [prev_pushBack, if_neg inner, if_neg old]
  · rw [next_pushBack (Ne.symm notList), if_neg (Ne.symm lastOld), if_pos rfl]
  · rw [prev_pushBack, if_pos rfl]
  · rw [← List.cons_append, List.nodup_append]
    refine ⟨circle.2, List.nodup_singleton other, ?_⟩
    intro found member added same same'
    rw [List.mem_singleton.mp same] at same'
    exact new (same' ▸ member)

theorem pushBack_apart
    (circle : Circle links list more) (kept : Circle links head nodes)
    (new : other ∉ head :: nodes) (notList : list ≠ other)
    (apart : ∀ found ∈ head :: nodes, found ∉ list :: more) :
    Circle (links.pushBack list other) head nodes := by
  refine kept.congr ?_
  intro found member
  have old : found ≠ other := fun same => new (same ▸ member)
  have away := apart found member
  have notLast : found ≠ links.prev list :=
    fun same => away (same ▸ circle.1.prev_mem)
  have notHead : found ≠ list := fun same => away (same ▸ List.mem_cons_self)
  rw [next_pushBack notList, prev_pushBack, if_neg notLast, if_neg old,
    if_neg notHead, if_neg old]
  exact ⟨rfl, rfl⟩

end Push

section Extract

theorem extract_of_lone (lone : links.Lone node) : links.extract node = links :=
  if_pos (decide_eq_true lone.1.1)

theorem next_extract
    (linked : links.next node ≠ node) (found : ConditionVariableEvent) :
    (links.extract node).next found =
      if found = node then node
      else if found = links.prev node then links.next node
      else links.next found := by
  unfold EventLinks.extract EventLinks.isSingleton
  rw [if_neg (by simpa using linked)]
  simp only [Function.update_apply, if_neg (Ne.symm linked)]

theorem prev_extract
    (linked : links.next node ≠ node) (found : ConditionVariableEvent) :
    (links.extract node).prev found =
      if found = node then node
      else if found = links.next node then links.prev node
      else links.prev found := by
  unfold EventLinks.extract EventLinks.isSingleton
  rw [if_neg (by simpa using linked)]
  simp only [Function.update_apply]

theorem extract_circle (circle : Circle links head (front ++ node :: back)) :
    Circle (links.extract node) head (front ++ back) ∧
      (links.extract node).Lone node := by
  obtain ⟨segment, nodup⟩ := circle
  obtain ⟨before, behind⟩ := segment_append.mp segment
  have whole : ((head :: front) ++ node :: back).Nodup := nodup
  obtain ⟨frontNodup, rest, disjoint⟩ := List.nodup_append.mp whole
  obtain ⟨notBack, backNodup⟩ := List.nodup_cons.mp rest
  have notFront : node ∉ head :: front :=
    fun member => disjoint node member node List.mem_cons_self rfl
  have linked : links.next node ≠ node := by
    intro same
    rcases List.mem_cons.mp behind.next_mem with isHead | inBack
    · exact notFront (by simp [← isHead, same])
    · exact notBack (same ▸ inBack)
  have apart : links.prev node ≠ node :=
    fun same => notFront (same ▸ before.prev_mem)
  have nextNotFront : links.next node ∉ front := by
    intro member
    rcases List.mem_cons.mp behind.next_mem with isHead | inBack
    · exact (List.nodup_cons.mp frontNodup).1 (isHead ▸ member)
    · exact disjoint _ (List.mem_cons_of_mem head member) _
        (List.mem_cons_of_mem node inBack) rfl
  have around : Segment (links.extract node) head front (links.next node) := by
    refine before.redirect frontNodup ?_ ?_ ?_ ?_
    · rw [next_extract linked, if_neg apart, if_pos rfl]
    · rw [prev_extract linked, if_neg linked, if_pos rfl]
    · intro found member inner
      have distinct : found ≠ node := fun same => notFront (same ▸ member)
      rw [next_extract linked, if_neg distinct, if_neg inner]
    · intro found member
      have distinct : found ≠ node :=
        fun same => notFront (same ▸ List.mem_cons_of_mem head member)
      have inner : found ≠ links.next node :=
        fun same => nextNotFront (same ▸ member)
      rw [prev_extract linked, if_neg distinct, if_neg inner]
  have closed : (head :: (front ++ back)).Nodup :=
    whole.sublist ((List.sublist_cons_self node back).append_left (head :: front))
  refine ⟨⟨?_, closed⟩, ⟨?_, ?_⟩, List.nodup_singleton node⟩
  · cases back with
    | nil =>
        rw [behind.1] at around
        rwa [List.append_nil]
    | cons next back =>
        obtain ⟨⟨isNext, -⟩, behind⟩ := behind
        rw [isNext] at around
        refine segment_append.mpr ⟨around, behind.congr ?_ ?_⟩
        · intro found member
          have distinct : found ≠ node := fun same => notBack (same ▸ member)
          have outer : found ≠ links.prev node := by
            intro same
            exact disjoint _ (same ▸ before.prev_mem) _
              (List.mem_cons_of_mem node member) rfl
          rw [next_extract linked, if_neg distinct, if_neg outer]
        · intro found member
          have distinct : found ≠ node := by
            rintro rfl
            rcases List.mem_append.mp member with inBack | isHead
            · exact notBack (List.mem_cons_of_mem next inBack)
            · exact notFront (by simp [List.mem_singleton.mp isHead])
          have outer : found ≠ links.next node := by
            rw [isNext]
            rintro rfl
            rcases List.mem_append.mp member with inBack | isHead
            · exact (List.nodup_cons.mp backNodup).1 inBack
            · exact disjoint head List.mem_cons_self found (by simp)
                (List.mem_singleton.mp isHead).symm
          rw [prev_extract linked, if_neg distinct, if_neg outer]
  · rw [next_extract linked, if_pos rfl]
  · rw [prev_extract linked, if_pos rfl]

theorem extract_apart
    (circle : Circle links list (front ++ node :: back))
    (kept : Circle links head nodes)
    (apart : ∀ found ∈ head :: nodes, found ∉ list :: (front ++ node :: back)) :
    Circle (links.extract node) head nodes := by
  obtain ⟨before, behind⟩ := segment_append.mp circle.1
  by_cases linked : links.next node = node
  · have same : links.extract node = links := if_pos (decide_eq_true linked)
    rwa [same]
  refine kept.congr ?_
  intro found member
  have away := apart found member
  have distinct : found ≠ node := by
    rintro rfl
    exact away (by simp)
  have notPrev : found ≠ links.prev node := by
    rintro rfl
    have inside := before.prev_mem
    refine away ?_
    simp only [List.mem_cons, List.mem_append] at inside ⊢
    tauto
  have notNext : found ≠ links.next node := by
    rintro rfl
    have inside := behind.next_mem
    refine away ?_
    simp only [List.mem_cons, List.mem_append] at inside ⊢
    tauto
  rw [next_extract linked, prev_extract linked, if_neg distinct, if_neg distinct,
    if_neg notPrev, if_neg notNext]
  exact ⟨rfl, rfl⟩

end Extract

section TwoLists

def ConditionVariableEvent.IsContainer : ConditionVariableEvent → Prop
  | .event _ => False
  | _ => True

/-- All events up to `counter` are in one of two lists or in none. -/
structure Lists (links : EventLinks) (first second : ConditionVariableEvent)
    (inFirst inSecond : List Nat) (counter : Nat) : Prop where
  circle : Circle links first (inFirst.map .event)
  other : Circle links second (inSecond.map .event)
  container : first.IsContainer
  otherContainer : second.IsContainer
  distinct : first ≠ second
  apart : ∀ handle ∈ inFirst, handle ∉ inSecond
  known : ∀ handle, handle ∈ inFirst ∨ handle ∈ inSecond → handle ≤ counter
  lone : ∀ handle ≤ counter, handle ∉ inFirst → handle ∉ inSecond →
    links.Lone (.event handle)

variable {first second : ConditionVariableEvent} {inFirst inSecond : List Nat}
  {counter handle : Nat}

theorem Lists.swap
    (lists : Lists links first second inFirst inSecond counter) :
    Lists links second first inSecond inFirst counter where
  circle := lists.other
  other := lists.circle
  container := lists.otherContainer
  otherContainer := lists.container
  distinct := lists.distinct.symm
  apart := fun handle member inFirst => lists.apart handle inFirst member
  known := fun handle member => lists.known handle member.symm
  lone := fun handle small outside outsideFirst =>
    lists.lone handle small outsideFirst outside

theorem event_ne_container
    (container : head.IsContainer) : ConditionVariableEvent.event handle ≠ head := by
  rintro rfl
  exact container

theorem event_notMem
    {handles : List Nat} (container : head.IsContainer)
    (outside : handle ∉ handles) :
    ConditionVariableEvent.event handle ∉ head :: handles.map .event := by
  intro member
  rcases List.mem_cons.mp member with isHead | inList
  · exact event_ne_container container isHead
  · obtain ⟨found, inside, same⟩ := List.mem_map.mp inList
    cases same
    exact outside inside

theorem Lists.nodes_apart
    (lists : Lists links first second inFirst inSecond counter) :
    ∀ found ∈ second :: inSecond.map .event,
      found ∉ first :: inFirst.map .event := by
  intro found member inList
  rcases List.mem_cons.mp member with rfl | inSecondList
  · rcases List.mem_cons.mp inList with same | inFirstList
    · exact lists.distinct same.symm
    · obtain ⟨handle, -, same⟩ := List.mem_map.mp inFirstList
      exact event_ne_container lists.otherContainer same
  · obtain ⟨handle, inside, rfl⟩ := List.mem_map.mp inSecondList
    refine event_notMem lists.container ?_ inList
    exact fun inFirst => lists.apart handle inFirst inside

theorem Lists.create
    (lists : Lists links first second inFirst inSecond counter) :
    Lists (links.create (.event (counter + 1))) first second inFirst inSecond
      (counter + 1) := by
  have newFirst : counter + 1 ∉ inFirst := by
    intro member
    exact absurd (lists.known _ (.inl member)) (by omega)
  have newSecond : counter + 1 ∉ inSecond := by
    intro member
    exact absurd (lists.known _ (.inr member)) (by omega)
  refine ⟨create_apart lists.circle (event_notMem lists.container newFirst),
    create_apart lists.other (event_notMem lists.otherContainer newSecond),
    lists.container, lists.otherContainer, lists.distinct, lists.apart, ?_, ?_⟩
  · intro handle member
    exact Nat.le_succ_of_le (lists.known handle member)
  · intro handle small outside outsideSecond
    by_cases new : handle = counter + 1
    · subst new
      exact create_lone
    · refine create_apart (lists.lone handle (by omega) outside outsideSecond) ?_
      simpa using Ne.symm new

theorem Lists.pushBack
    (lists : Lists links first second inFirst inSecond counter)
    (small : handle ≤ counter) (outside : handle ∉ inFirst)
    (outsideSecond : handle ∉ inSecond) :
    Lists (links.pushBack first (.event handle)) first second
      (inFirst ++ [handle]) inSecond counter := by
  have notFirst : ConditionVariableEvent.event handle ≠ first :=
    event_ne_container lists.container
  refine ⟨?_, ?_, lists.container, lists.otherContainer, lists.distinct, ?_, ?_,
    ?_⟩
  · have pushed := pushBack_circle lists.circle
      (event_notMem lists.container outside)
    simpa using pushed
  · exact pushBack_apart lists.circle lists.other
      (event_notMem lists.otherContainer outsideSecond) (Ne.symm notFirst)
      lists.nodes_apart
  · intro found member
    rcases List.mem_append.mp member with old | new
    · exact lists.apart found old
    · rwa [List.mem_singleton.mp new]
  · intro found member
    simp only [List.mem_append, List.mem_singleton] at member
    rcases member with (old | rfl) | inSecondList
    · exact lists.known found (.inl old)
    · exact small
    · exact lists.known found (.inr inSecondList)
  · intro found bound notInFirst notInSecond
    simp only [List.mem_append, List.mem_singleton, not_or] at notInFirst
    refine pushBack_apart lists.circle
      (lists.lone found bound notInFirst.1 notInSecond) ?_ (Ne.symm notFirst) ?_
    · simpa using Ne.symm notInFirst.2
    · intro node member
      rw [List.mem_singleton.mp member]
      exact event_notMem lists.container notInFirst.1

theorem Lists.extract
    {before behind : List Nat}
    (lists : Lists links first second (before ++ handle :: behind) inSecond
      counter) :
    Lists (links.extract (.event handle)) first second (before ++ behind) inSecond
      counter := by
  have circle := lists.circle
  rw [List.map_append, List.map_cons] at circle
  have apart := lists.nodes_apart
  rw [List.map_append, List.map_cons] at apart
  obtain ⟨left, single⟩ := extract_circle circle
  refine ⟨?_, extract_apart circle lists.other apart, lists.container,
    lists.otherContainer, lists.distinct, ?_, ?_, ?_⟩
  · rwa [List.map_append]
  · intro found member
    refine lists.apart found ?_
    simp only [List.mem_append, List.mem_cons] at member ⊢
    tauto
  · intro found member
    refine lists.known found ?_
    simp only [List.mem_append, List.mem_cons] at member ⊢
    tauto
  · intro found bound notInFirst notInSecond
    by_cases same : found = handle
    · rwa [same]
    have outside : found ∉ before ++ handle :: behind := by
      simp only [List.mem_append, List.mem_cons] at notInFirst ⊢
      tauto
    refine extract_apart circle (lists.lone found bound outside notInSecond) ?_
    intro node member
    rw [List.mem_singleton.mp member]
    have away := event_notMem lists.container outside
    rwa [List.map_append, List.map_cons] at away

theorem Lists.nodup
    (lists : Lists links first second inFirst inSecond counter) :
    inFirst.Nodup :=
  List.Nodup.of_map _ (List.nodup_cons.mp lists.circle.2).2

end TwoLists

end NativeClient.Sync
