import ClusterMembership.Network.Links

/-!
# What the network delivers

The course of a network is a record of operations and their answers, the latest one first.  What
can be told from the record alone, that is, which links are cut, which names are isolated, which
endpoints are open, what has been sent to them and how many receives wait at them, is defined here
without a look at the network.  The network agrees with it after every operation:
`delivers_what_links_allow`.

A receive is more than one operation.  It begins, goes on once or several times, and ends or is
given up; anything can happen to the network in between, and so the endpoint may be closed while
receives wait at it.
-/

namespace ClusterMembership

namespace Network

/-! ## Operations -/

/-- An operation on the network; endpoints are given by their numbers. -/
inductive Operation where
  | bind (name : MemberName)
  | send (number : Nat) (target : MemberName) (bytes : Bytes)
  | broadcast (number : Nat) (targets : List MemberName) (bytes : Bytes)
  | beginReceive (number : Nat)
  | resumeReceive (number : Nat) (closing : Bool)
  | abandonReceive (number : Nat)
  | partition (left right : MemberName)
  | heal (left right : MemberName)
  | isolate (name : MemberName)
  | healAll
  | close (number : Nat)
  deriving DecidableEq, Repr

/-- What an operation answers. -/
inductive Answer where
  | bound (number : Nat)
  | failed (cause : GossipError)
  | found (arrival : Arrival)
  | done

/-- Perform an operation; the network is as before when it fails. -/
def perform (network : Network) : Operation → Answer × Network
  | .bind name =>
    match network.bind name with
    | .ok (number, network) => (.bound number, network)
    | .error cause => (.failed cause, network)
  | .send number target bytes =>
    match network.send number target bytes with
    | .ok network => (.done, network)
    | .error cause => (.failed cause, network)
  | .broadcast number targets bytes => (.done, network.broadcast number targets bytes)
  | .beginReceive number =>
    let (arrival, network) := network.beginReceive number
    (.found arrival, network)
  | .resumeReceive number closing =>
    let (arrival, network) := network.resumeReceive number closing
    (.found arrival, network)
  | .abandonReceive number => (.done, network.abandonReceive number)
  | .partition left right => (.done, network.partition left right)
  | .heal left right => (.done, network.heal left right)
  | .isolate name => (.done, network.isolate name)
  | .healAll => (.done, network.healAll)
  | .close number => (.done, network.close number)

/-- Operations and their answers, the latest one first. -/
abbrev Record := List (Operation × Answer)

/-- A network with the record of what was done to it. -/
structure Course where
  record : Record
  network : Network

/-- Perform an operation and record it. -/
def Course.next (course : Course) (operation : Operation) : Course where
  record := (operation, (course.network.perform operation).1) :: course.record
  network := (course.network.perform operation).2

/-- The course that operations take, one after the other, from the empty network. -/
def course (operations : List Operation) : Course :=
  operations.foldl Course.next { record := [], network := empty }

/-! ## What the record tells -/

/-- Whether two names are these two, in either order. -/
def samePair (left right one other : MemberName) : Bool :=
  (left = one && right = other) || (right = one && left = other)

namespace Record

/-- Whether the link between two names is cut: partitioned, and not healed since. -/
def cut (one other : MemberName) : Record → Bool
  | [] => false
  | (.partition left right, _) :: earlier => samePair left right one other || cut one other earlier
  | (.heal left right, _) :: earlier => !samePair left right one other && cut one other earlier
  | (.healAll, _) :: _ => false
  | _ :: earlier => cut one other earlier

/-- Whether a name is isolated, and not healed since. -/
def alone (name : MemberName) : Record → Bool
  | [] => false
  | (.isolate other, _) :: earlier => other = name || alone name earlier
  | (.healAll, _) :: _ => false
  | _ :: earlier => alone name earlier

/-- The name an endpoint was bound to. -/
def name? (number : Nat) : Record → Option MemberName
  | [] => none
  | (.bind name, .bound other) :: earlier =>
    if other = number then some name else name? number earlier
  | _ :: earlier => name? number earlier

/-- The name an endpoint was bound to, unless it was closed since. -/
def openName? (number : Nat) : Record → Option MemberName
  | [] => none
  | (.bind name, .bound other) :: earlier =>
    if other = number then some name else openName? number earlier
  | (.close other, _) :: earlier => if other = number then none else openName? number earlier
  | _ :: earlier => openName? number earlier

/-- The datagrams an endpoint has received, oldest first. -/
def received (number : Nat) : Record → List Datagram
  | [] => []
  | (.resumeReceive other _, .found (.datagram datagram)) :: earlier =>
    if other = number then received number earlier ++ [datagram] else received number earlier
  | _ :: earlier => received number earlier

/-- How many receives wait at an endpoint: they have begun, and have not ended or been given up. -/
def pending (number : Nat) : Record → Nat
  | [] => 0
  | (.beginReceive other, .found .nothing) :: earlier =>
    if other = number then pending number earlier + 1 else pending number earlier
  | (.resumeReceive other _, .found arrival) :: earlier =>
    if other = number ∧ arrival ≠ .nothing then pending number earlier - 1
    else pending number earlier
  | (.abandonReceive other, _) :: earlier =>
    if other = number then pending number earlier - 1 else pending number earlier
  | _ :: earlier => pending number earlier

/--
The datagram that comes to a name when an endpoint sends to a target.  The target is this name, the
endpoint is open, the link is not cut, and neither of the two is isolated.
-/
def arriving?
    (record : Record)
    (name : MemberName)
    (number : Nat)
    (bytes : Bytes)
    (target : MemberName) :
    Option Datagram :=
  (record.openName? number).bind fun source =>
    if target = name && !(record.cut source name || record.alone source || record.alone name) then
      some { bytes, sender := source.text }
    else
      none

/-- The datagrams that come to a name with one operation, in the order in which they are sent. -/
def arrivals (record : Record) (name : MemberName) : Operation → List Datagram
  | .send number target bytes => [target].filterMap (record.arriving? name number bytes)
  | .broadcast number targets bytes => targets.filterMap (record.arriving? name number bytes)
  | _ => []

/--
The datagrams that have come to the name of an endpoint since it was bound, until it is closed,
oldest first.
-/
def due (number : Nat) : Record → List Datagram
  | [] => []
  | (operation, _) :: earlier =>
    due number earlier ++
      match openName? number earlier with
      | some name => arrivals earlier name operation
      | none => []

theorem due_of_silent
    (record : Record)
    (operation : Operation)
    (answer : Answer)
    (silent : ∀ name, record.arrivals name operation = [])
    (number : Nat) :
    due number ((operation, answer) :: record) = record.due number := by
  rw [due]
  cases record.openName? number with
  | none => simp
  | some name => simp [silent name]

/-- Nothing more is due to an endpoint that is closed. -/
theorem due_of_shut
    {record : Record}
    {number : Nat}
    (shut : record.openName? number = none)
    (event : Operation × Answer) :
    due number (event :: record) = record.due number := by
  simp [due, shut]

/-- What has been received remains received. -/
theorem received_prefix (record : Record) (number : Nat) (event : Operation × Answer) :
    record.received number <+: received number (event :: record) := by
  rw [received.eq_def number (event :: record)]
  split
  · rename_i nothing
    cases nothing
  · rename_i same
    cases same
    split
    · exact List.prefix_append _ _
    · exact List.prefix_rfl
  · rename_i same
    cases same
    exact List.prefix_rfl

end Record

/-! ## What the network has -/

section Access

variable (network : Network) (number : Nat)

/-- The name of an endpoint. -/
def name? : Option MemberName :=
  network.endpoints[number]?.map Endpoint.name

/-- The name of an endpoint that is open. -/
def openName? : Option MemberName :=
  (network.endpoints[number]?.filter Endpoint.isOpen).map Endpoint.name

/-- The datagrams that wait at an endpoint. -/
def waiting : List Datagram :=
  (network.endpoints[number]?.map Endpoint.inbox).getD []

/-- How many receives wait at an endpoint. -/
def pending : Nat :=
  (network.endpoints[number]?.map Endpoint.pending).getD 0

end Access

/-- Names lead to the open endpoints that are bound to them. -/
def Leads (network : Network) : Prop :=
  ∀ name number, network.bound[name]? = some number ↔ network.openName? number = some name

section Effects

variable {network : Network}

theorem openName?_eq_some_iff {number : Nat} {name : MemberName} :
    network.openName? number = some name ↔
      ∃ endpoint, network.endpoints[number]? = some endpoint ∧ endpoint.isOpen = true ∧
        endpoint.name = name := by
  simp [openName?, Option.filter_eq_some_iff, and_assoc]

theorem name?_of_openName?
    {number : Nat}
    {name : MemberName}
    (opened : network.openName? number = some name) :
    network.name? number = some name := by
  obtain ⟨endpoint, found, -, named⟩ := openName?_eq_some_iff.1 opened
  simp [name?, found, named]

theorem waiting_of_found
    {number : Nat}
    {endpoint : Endpoint}
    (found : network.endpoints[number]? = some endpoint) :
    network.waiting number = endpoint.inbox := by
  simp [waiting, found]

theorem pending_of_found
    {number : Nat}
    {endpoint : Endpoint}
    (found : network.endpoints[number]? = some endpoint) :
    network.pending number = endpoint.pending := by
  simp [pending, found]

/-! ### Binding -/

theorem bind_of_bound
    {name : MemberName}
    {number : Nat}
    (held : network.bound[name]? = some number) :
    network.bind name = .error (.transport (name.text ++ " is already bound")) := by
  rw [bind, if_pos]
  rw [Std.ExtHashMap.contains_eq_isSome_getElem?, held]
  rfl

theorem bind_of_free {name : MemberName} (free : network.bound[name]? = none) :
    ∃ next : Network, network.bind name = .ok (network.endpoints.size, next) ∧
      next.bound = network.bound.insert name network.endpoints.size ∧
      next.blocked = network.blocked ∧ next.isolated = network.isolated ∧
      (∀ number, next.name? number =
        if network.endpoints.size = number then some name else network.name? number) ∧
      (∀ number, next.openName? number =
        if network.endpoints.size = number then some name else network.openName? number) ∧
      ∀ number, next.waiting number = network.waiting number ∧
        next.pending number = network.pending number := by
  have absent : network.bound.contains name = false := by
    rw [Std.ExtHashMap.contains_eq_isSome_getElem?, free]
    rfl
  refine ⟨{ network with
    endpoints := network.endpoints.push { name, inbox := [], isOpen := true, pending := 0 }
    bound := network.bound.insert name network.endpoints.size },
    by simp [bind, absent], rfl, rfl, rfl, ?_, ?_, ?_⟩
  all_goals
    intro number
    by_cases same : network.endpoints.size = number
    · simp [name?, openName?, waiting, pending, ← same, Option.filter]
    · simp [name?, openName?, waiting, pending, Array.getElem?_push, same, Ne.symm same]

/-! ### Sending -/

section Deliver

variable (source target : MemberName) (bytes : Bytes) (number : Nat)

@[simp]
theorem bound_deliver : (network.deliver source target bytes).bound = network.bound := by
  unfold deliver
  split
  · rfl
  · split <;> rfl

@[simp]
theorem blocked_deliver : (network.deliver source target bytes).blocked = network.blocked := by
  unfold deliver
  split
  · rfl
  · split <;> rfl

@[simp]
theorem isolated_deliver : (network.deliver source target bytes).isolated = network.isolated := by
  unfold deliver
  split
  · rfl
  · split <;> rfl

@[simp]
theorem name?_deliver :
    (network.deliver source target bytes).name? number = network.name? number := by
  unfold deliver
  split
  · rfl
  · split
    · rfl
    · simp only [name?, Array.getElem?_modify]
      split <;> simp [Function.comp_def]

@[simp]
theorem openName?_deliver :
    (network.deliver source target bytes).openName? number = network.openName? number := by
  unfold deliver
  split
  · rfl
  · split
    · rfl
    · simp only [openName?, Array.getElem?_modify]
      split
      · cases network.endpoints[number]? <;> simp [Option.filter]
      · rfl

@[simp]
theorem pending_deliver :
    (network.deliver source target bytes).pending number = network.pending number := by
  unfold deliver
  split
  · rfl
  · split
    · rfl
    · simp only [pending, Array.getElem?_modify]
      split <;> simp [Function.comp_def]

@[simp]
theorem isBlocked_deliver (one other : MemberName) :
    (network.deliver source target bytes).isBlocked one other = network.isBlocked one other := by
  simp [isBlocked]

/-- A datagram waits at the open endpoint of its target, if the links let it pass. -/
theorem waiting_deliver (leads : network.Leads) :
    (network.deliver source target bytes).waiting number =
      network.waiting number ++
        if network.openName? number = some target ∧ network.isBlocked source target = false then
          [{ bytes, sender := source.text }]
        else
          [] := by
  unfold deliver
  cases blocked : network.isBlocked source target with
  | true => simp
  | false =>
    cases held : network.bound[target]? with
    | none =>
      have shut : network.openName? number ≠ some target := by
        intro opened
        rw [(leads target number).2 opened] at held
        cases held
      simp [shut]
    | some holder =>
      by_cases same : holder = number
      · subst same
        have opened := (leads target holder).1 held
        obtain ⟨endpoint, found, -, -⟩ := openName?_eq_some_iff.1 opened
        simp [waiting, Array.getElem?_modify, opened, found]
      · have shut : network.openName? number ≠ some target := by
          intro opened
          rw [(leads target number).2 opened, Option.some.injEq] at held
          exact same held.symm
        simp [waiting, Array.getElem?_modify, shut, same]

end Deliver

/-- Let a datagram pass from one name to several, one after the other. -/
def deliverAll
    (network : Network)
    (source : MemberName)
    (bytes : Bytes) :
    List MemberName → Network
  | [] => network
  | target :: targets => (network.deliver source target bytes).deliverAll source bytes targets

theorem send_eq (number : Nat) (target : MemberName) (bytes : Bytes) :
    network.send number target bytes =
      match network.openName? number with
      | some source => .ok (network.deliver source target bytes)
      | none => .error (.transport "transport closed") := by
  unfold send openName?
  cases network.endpoints[number]? with
  | none => rfl
  | some endpoint => cases opened : endpoint.isOpen <;> simp [opened, Option.filter]

theorem broadcast_eq (number : Nat) (targets : List MemberName) (bytes : Bytes) :
    network.broadcast number targets bytes =
      match network.openName? number with
      | some source => network.deliverAll source bytes targets
      | none => network := by
  unfold broadcast
  induction targets generalizing network with
  | nil => cases network.openName? number <;> rfl
  | cons target targets step =>
    rw [List.foldl_cons, send_eq]
    cases opened : network.openName? number with
    | none => simp [step, opened]
    | some source => simp [step, opened, deliverAll]

/-- To send to one target is to broadcast to it. -/
theorem perform_send (number : Nat) (target : MemberName) (bytes : Bytes) :
    (network.perform (.send number target bytes)).2 = network.broadcast number [target] bytes := by
  rw [perform, send_eq, broadcast_eq]
  cases network.openName? number <;> rfl

/-- What is the same after several deliveries, and what has come to wait with them. -/
theorem deliverAll_effect
    (leads : network.Leads)
    (source : MemberName)
    (bytes : Bytes)
    (targets : List MemberName) :
    let next := network.deliverAll source bytes targets
    next.bound = network.bound ∧ next.blocked = network.blocked ∧
      next.isolated = network.isolated ∧
      (∀ number, next.name? number = network.name? number) ∧
      (∀ number, next.openName? number = network.openName? number) ∧
      (∀ number, next.pending number = network.pending number) ∧
      ∀ number, next.waiting number =
        network.waiting number ++ targets.filterMap fun target =>
          if network.openName? number = some target ∧ network.isBlocked source target = false then
            some { bytes, sender := source.text }
          else
            none := by
  induction targets generalizing network with
  | nil => simp [deliverAll]
  | cons target targets step =>
    have still : (network.deliver source target bytes).Leads := by
      intro name number
      simp [leads name number]
    obtain ⟨bound, blocked, isolated, named, opened, pending, waits⟩ := step still
    refine ⟨by simp [deliverAll, bound], by simp [deliverAll, blocked],
      by simp [deliverAll, isolated], by simp [deliverAll, named],
      by simp [deliverAll, opened], by simp [deliverAll, pending], ?_⟩
    intro number
    rw [deliverAll, waits, waiting_deliver _ _ _ _ leads, List.append_assoc, List.filterMap_cons]
    simp only [openName?_deliver, isBlocked_deliver]
    split <;> rfl

/-! ### Receiving and closing -/

theorem getElem?_set
    {number : Nat}
    {endpoint : Endpoint}
    (found : network.endpoints[number]? = some endpoint)
    (changed : Endpoint)
    (other : Nat) :
    (network.endpoints.setIfInBounds number changed)[other]? =
      if number = other then some changed else network.endpoints[other]? := by
  have inside : number < network.endpoints.size := (Array.getElem?_eq_some_iff.1 found).1
  rw [Array.getElem?_setIfInBounds]
  simp [inside]

theorem waiting_of_kept
    {number : Nat}
    {endpoint changed : Endpoint}
    (found : network.endpoints[number]? = some endpoint)
    (kept : changed.inbox = endpoint.inbox)
    (other : Nat) :
    (if number = other then changed.inbox else network.waiting other) = network.waiting other := by
  split
  · rename_i same
    rw [← same, waiting_of_found found, kept]
  · rfl

/-- What is the same when an endpoint is replaced by one of the same name, as open as the other. -/
theorem replace_effect
    {number : Nat}
    {endpoint changed : Endpoint}
    (found : network.endpoints[number]? = some endpoint)
    (named : changed.name = endpoint.name)
    (opened : changed.isOpen = endpoint.isOpen) :
    let next := network.replace number changed
    (∀ other, next.name? other = network.name? other) ∧
      (∀ other, next.openName? other = network.openName? other) ∧
      ∀ other,
        next.waiting other = (if number = other then changed.inbox else network.waiting other) ∧
          next.pending other =
            if number = other then changed.pending else network.pending other := by
  refine ⟨fun other => ?_, fun other => ?_, fun other => ⟨?_, ?_⟩⟩
  all_goals
    simp only [replace, name?, openName?, waiting, pending, getElem?_set found]
    by_cases same : number = other
    · simp [← same, found, Option.filter, named, opened]
    · simp [same]

theorem beginReceive_of_shut {number : Nat} (shut : network.openName? number = none) :
    network.beginReceive number = (.closed, network) := by
  unfold beginReceive
  cases found : network.endpoints[number]? with
  | none => rfl
  | some endpoint =>
    cases opened : endpoint.isOpen with
    | false => simp [opened]
    | true => simp [openName?, found, opened, Option.filter] at shut

theorem beginReceive_of_open
    {number : Nat}
    {endpoint : Endpoint}
    (found : network.endpoints[number]? = some endpoint)
    (isOpen : endpoint.isOpen = true) :
    network.beginReceive number =
      (.nothing, network.replace number { endpoint with pending := endpoint.pending + 1 }) := by
  simp [beginReceive, found, isOpen]

theorem resumeReceive_of_found
    {number : Nat}
    {endpoint : Endpoint}
    (found : network.endpoints[number]? = some endpoint)
    (closing : Bool) :
    network.resumeReceive number closing =
      ((endpoint.resume closing).1, network.replace number (endpoint.resume closing).2) := by
  simp [resumeReceive, found]

/-- What a receive can find when it goes on, and what becomes of its endpoint. -/
theorem resume_cases (endpoint : Endpoint) (closing : Bool) :
    (endpoint.resume closing = (.nothing, endpoint) ∧
        (endpoint.pending = 0 ∨ endpoint.isOpen = true ∧ endpoint.inbox = [])) ∨
      (∃ first rest, endpoint.inbox = first :: rest ∧ endpoint.pending ≠ 0 ∧
        (endpoint.isOpen = true ∨ closing = false) ∧
        endpoint.resume closing =
          (.datagram first, { endpoint with inbox := rest, pending := endpoint.pending - 1 })) ∨
      (endpoint.isOpen = false ∧ endpoint.pending ≠ 0 ∧ (closing = true ∨ endpoint.inbox = []) ∧
        endpoint.resume closing =
          (.closed, { endpoint with pending := endpoint.pending - 1 })) := by
  obtain ⟨name, inbox, isOpen, pending⟩ := endpoint
  cases pending with
  | zero => exact .inl ⟨rfl, .inl rfl⟩
  | succ pending => cases isOpen <;> cases closing <;> cases inbox <;> simp [Endpoint.resume]

theorem close_of_shut {number : Nat} (shut : network.openName? number = none) :
    network.close number = network := by
  unfold close
  cases found : network.endpoints[number]? with
  | none => rfl
  | some endpoint =>
    cases opened : endpoint.isOpen with
    | false => simp [opened]
    | true => simp [openName?, found, opened, Option.filter] at shut

theorem close_of_open
    {number : Nat}
    {name : MemberName}
    (opened : network.openName? number = some name) :
    let next := network.close number
    next.bound = network.bound.erase name ∧ next.blocked = network.blocked ∧
      next.isolated = network.isolated ∧
      (∀ other, next.name? other = network.name? other) ∧
      (∀ other, next.openName? other =
        if number = other then none else network.openName? other) ∧
      ∀ other, next.waiting other = network.waiting other ∧
        next.pending other = network.pending other := by
  obtain ⟨endpoint, found, isOpen, rfl⟩ := openName?_eq_some_iff.1 opened
  have closed : network.close number =
      { network with
        endpoints := network.endpoints.setIfInBounds number { endpoint with isOpen := false }
        bound := network.bound.erase endpoint.name } := by
    simp [close, found, isOpen]
  rw [closed]
  refine ⟨rfl, rfl, rfl, ?_, ?_, ?_⟩
  all_goals
    intro other
    simp only [name?, openName?, waiting, pending, getElem?_set found]
    split
    · rename_i same
      simp [← same, found, Option.filter]
    · simp

end Effects

/-! ## Agreement -/

/-- A network that is as the record tells. -/
structure Agrees (record : Record) (network : Network) : Prop where
  cut : ∀ one other, network.blocked.contains (one, other) = record.cut one other
  alone : ∀ name, network.isolated.contains name = record.alone name
  leads : network.Leads
  named : ∀ number, network.name? number = record.name? number
  opened : ∀ number, network.openName? number = record.openName? number
  pending : ∀ number, network.pending number = record.pending number
  /-- The datagrams that are due to an endpoint have been received, or wait at it. -/
  kept : ∀ number, record.received number ++ network.waiting number = record.due number

namespace Agrees

variable {record : Record} {network : Network}

theorem empty : Agrees [] Network.empty where
  cut one other := by simp [Network.empty, Record.cut]
  alone name := by simp [Network.empty, Record.alone]
  leads name number := by simp [Network.empty, openName?]
  named number := by simp [Network.empty, Network.name?, Record.name?]
  opened number := by simp [Network.empty, Network.openName?, Record.openName?]
  pending number := by simp [Network.empty, Network.pending, Record.pending]
  kept number := by simp [Network.empty, waiting, Record.received, Record.due]

/-- What concerns the links only leaves every endpoint as it is. -/
theorem of_links
    {operation : Operation}
    {answer : Answer}
    {next : Network}
    (agrees : Agrees record network)
    (endpoints : next.endpoints = network.endpoints)
    (bound : next.bound = network.bound)
    (cut : ∀ one other,
      next.blocked.contains (one, other) = Record.cut one other ((operation, answer) :: record))
    (alone : ∀ name,
      next.isolated.contains name = Record.alone name ((operation, answer) :: record))
    (silent : ∀ number,
      Record.name? number ((operation, answer) :: record) = record.name? number ∧
        Record.openName? number ((operation, answer) :: record) = record.openName? number ∧
        Record.received number ((operation, answer) :: record) = record.received number ∧
        Record.pending number ((operation, answer) :: record) = record.pending number ∧
        ∀ name, record.arrivals name operation = []) :
    Agrees ((operation, answer) :: record) next := by
  have named : ∀ number, next.name? number = network.name? number := by
    simp [Network.name?, endpoints]
  have opened : ∀ number, next.openName? number = network.openName? number := by
    simp [Network.openName?, endpoints]
  have waits : ∀ number, next.waiting number = network.waiting number := by
    simp [waiting, endpoints]
  have pending : ∀ number, next.pending number = network.pending number := by
    simp [Network.pending, endpoints]
  have due := Record.due_of_silent record operation answer (silent 0).2.2.2.2
  exact
    { cut, alone
      leads := fun name number => by rw [bound, opened, agrees.leads]
      named := fun number => by rw [named, agrees.named, (silent number).1]
      opened := fun number => by rw [opened, agrees.opened, (silent number).2.1]
      pending := fun number => by rw [pending, agrees.pending, (silent number).2.2.2.1]
      kept := fun number => by rw [(silent number).2.2.1, waits, due, agrees.kept] }

theorem partition (agrees : Agrees record network) (left right : MemberName) :
    Agrees ((.partition left right, .done) :: record) (network.partition left right) := by
  refine agrees.of_links rfl rfl (fun one other => ?_) agrees.alone fun _ =>
    ⟨rfl, rfl, rfl, rfl, fun _ => rfl⟩
  rw [Record.cut, ← agrees.cut, Bool.eq_iff_iff]
  simp [Network.partition, samePair, or_assoc, or_left_comm]

theorem heal (agrees : Agrees record network) (left right : MemberName) :
    Agrees ((.heal left right, .done) :: record) (network.heal left right) := by
  refine agrees.of_links rfl rfl (fun one other => ?_) agrees.alone fun _ =>
    ⟨rfl, rfl, rfl, rfl, fun _ => rfl⟩
  rw [Record.cut, ← agrees.cut, Bool.eq_iff_iff]
  simp [Network.heal, samePair, and_assoc, and_left_comm, Decidable.imp_iff_not_or]

theorem isolate (agrees : Agrees record network) (name : MemberName) :
    Agrees ((.isolate name, .done) :: record) (network.isolate name) := by
  refine agrees.of_links rfl rfl agrees.cut (fun other => ?_) fun _ =>
    ⟨rfl, rfl, rfl, rfl, fun _ => rfl⟩
  rw [Record.alone, ← agrees.alone, Bool.eq_iff_iff]
  simp [Network.isolate]

theorem healAll (agrees : Agrees record network) :
    Agrees ((.healAll, .done) :: record) network.healAll := by
  refine agrees.of_links rfl rfl (fun one other => ?_) (fun other => ?_) fun _ =>
    ⟨rfl, rfl, rfl, rfl, fun _ => rfl⟩
  · simp [Network.healAll, Record.cut]
  · simp [Network.healAll, Record.alone]

theorem bind (agrees : Agrees record network) (name : MemberName) :
    Agrees ((.bind name, (network.perform (.bind name)).1) :: record)
      (network.perform (.bind name)).2 := by
  cases held : network.bound[name]? with
  | some number =>
    simp only [perform, bind_of_bound held]
    exact agrees.of_links rfl rfl agrees.cut agrees.alone fun _ =>
      ⟨rfl, rfl, rfl, rfl, fun _ => rfl⟩
  | none =>
    obtain ⟨next, answer, bound, blocked, isolated, named, names, queues⟩ := bind_of_free held
    simp only [perform, answer]
    have due := Record.due_of_silent record (.bind name) (.bound network.endpoints.size)
      fun _ => rfl
    -- the new number stands for no endpoint yet
    have fresh : network.name? network.endpoints.size = none := by
      simp [Network.name?]
    refine
      { cut := fun one other => by rw [blocked]; exact agrees.cut one other
        alone := fun other => by rw [isolated]; exact agrees.alone other
        leads := fun other number => ?_
        named := fun number => by rw [named, Record.name?, agrees.named]
        opened := fun number => by rw [names, Record.openName?, agrees.opened]
        pending := fun number => (queues number).2.trans (agrees.pending number)
        kept := fun number => by
          rw [(queues number).1, due]
          exact agrees.kept number }
    rw [bound, names, Std.ExtHashMap.getElem?_insert]
    have before := agrees.leads other number
    by_cases same : network.endpoints.size = number
    · subst same
      have shut : network.openName? network.endpoints.size ≠ some other := by
        intro opened
        rw [name?_of_openName? opened] at fresh
        cases fresh
      by_cases taken : name = other <;> simp [taken, before, shut]
    · by_cases taken : name = other
      · subst taken
        simp [same, ← before, held]
      · simp [taken, same, before]

theorem arriving?_eq
    {number : Nat}
    {source : MemberName}
    (agrees : Agrees record network)
    (opened : network.openName? number = some source)
    (name : MemberName)
    (bytes : Bytes)
    (target : MemberName) :
    record.arriving? name number bytes target =
      if target = name ∧ network.isBlocked source target = false then
        some { bytes, sender := source.text }
      else
        none := by
  rw [Record.arriving?, ← agrees.opened, opened, Option.bind_some, ← agrees.cut, ← agrees.alone,
    ← agrees.alone, isBlocked]
  by_cases same : target = name
  · subst same
    cases network.isolated.contains source <;> cases network.isolated.contains target <;>
      cases network.blocked.contains (source, target) <;> simp
  · simp [same]

theorem broadcast
    {answer : Answer}
    (agrees : Agrees record network)
    (number : Nat)
    (targets : List MemberName)
    (bytes : Bytes) :
    Agrees ((.broadcast number targets bytes, answer) :: record)
      (network.broadcast number targets bytes) := by
  rw [broadcast_eq]
  cases opened : network.openName? number with
  | none =>
    refine agrees.of_links rfl rfl agrees.cut agrees.alone fun other =>
      ⟨rfl, rfl, rfl, rfl, fun name => ?_⟩
    simp [Record.arrivals, Record.arriving?, ← agrees.opened, opened]
  | some source =>
    obtain ⟨bound, blocked, isolated, named, names, pending, waits⟩ :=
      deliverAll_effect agrees.leads source bytes targets
    refine
      { cut := fun one other => by rw [blocked]; exact agrees.cut one other
        alone := fun name => by rw [isolated]; exact agrees.alone name
        leads := fun name other => by rw [bound, names, agrees.leads]
        named := fun other => by rw [named]; exact agrees.named other
        opened := fun other => by rw [names]; exact agrees.opened other
        pending := fun other => by rw [pending]; exact agrees.pending other
        kept := fun other => ?_ }
    cases isOpen : network.openName? other with
    | none =>
      have quiet : (network.deliverAll source bytes targets).waiting other =
          network.waiting other := by
        simp [waits, isOpen]
      rw [Record.due_of_shut ((agrees.opened other).symm.trans isOpen), quiet]
      exact agrees.kept other
    | some name =>
      -- what comes to an open endpoint is what the record has arriving at its name
      rw [waits, ← List.append_assoc, Record.due, ← agrees.opened, isOpen, ← agrees.kept other]
      simp only [Record.arrivals]
      congr 2
      funext target
      simp only [agrees.arriving?_eq opened, Option.some.injEq, @eq_comm _ name target]

theorem send
    {answer : Answer}
    (agrees : Agrees record network)
    (number : Nat)
    (target : MemberName)
    (bytes : Bytes) :
    Agrees ((.send number target bytes, answer) :: record)
      (network.broadcast number [target] bytes) :=
  -- the record tells of a datagram to one target what it tells of a broadcast to it
  let single : Agrees ((.broadcast number [target] bytes, answer) :: record) _ :=
    agrees.broadcast number [target] bytes
  { single with }

/-- What replaces an endpoint by one of the same name leaves the links as they are. -/
theorem replace
    {operation : Operation}
    {answer : Answer}
    {number : Nat}
    {endpoint changed : Endpoint}
    (agrees : Agrees record network)
    (found : network.endpoints[number]? = some endpoint)
    (named : changed.name = endpoint.name)
    (opened : changed.isOpen = endpoint.isOpen)
    (links : ∀ one other,
      Record.cut one other ((operation, answer) :: record) = record.cut one other ∧
        Record.alone one ((operation, answer) :: record) = record.alone one ∧
        record.arrivals one operation = [])
    (silent : ∀ other,
      Record.name? other ((operation, answer) :: record) = record.name? other ∧
        Record.openName? other ((operation, answer) :: record) = record.openName? other)
    (pending : ∀ other,
      Record.pending other ((operation, answer) :: record) =
        if number = other then changed.pending else record.pending other)
    (kept : ∀ other,
      Record.received other ((operation, answer) :: record) ++
          (if number = other then changed.inbox else network.waiting other) =
        record.received other ++ network.waiting other) :
    Agrees ((operation, answer) :: record) (network.replace number changed) := by
  obtain ⟨names, opens, queues⟩ := replace_effect found named opened
  have due := Record.due_of_silent record operation answer fun name => (links name name).2.2
  exact
    { cut := fun one other => by rw [(links one other).1]; exact agrees.cut one other
      alone := fun name => by rw [(links name name).2.1]; exact agrees.alone name
      leads := fun name other => by rw [opens]; exact agrees.leads name other
      named := fun other => by rw [names, (silent other).1, agrees.named]
      opened := fun other => by rw [opens, (silent other).2, agrees.opened]
      pending := fun other => by rw [(queues other).2, pending, agrees.pending]
      kept := fun other => by rw [(queues other).1, due, kept, agrees.kept] }

theorem beginReceive (agrees : Agrees record network) (number : Nat) :
    Agrees ((.beginReceive number, .found (network.beginReceive number).1) :: record)
      (network.beginReceive number).2 := by
  cases opened : network.openName? number with
  | none =>
    rw [beginReceive_of_shut opened]
    exact agrees.of_links rfl rfl agrees.cut agrees.alone fun _ =>
      ⟨rfl, rfl, rfl, rfl, fun _ => rfl⟩
  | some name =>
    obtain ⟨endpoint, found, isOpen, -⟩ := openName?_eq_some_iff.1 opened
    rw [beginReceive_of_open found isOpen]
    refine agrees.replace found rfl rfl (fun _ _ => ⟨rfl, rfl, rfl⟩) (fun _ => ⟨rfl, rfl⟩)
      (fun other => ?_) fun other => ?_
    · by_cases same : number = other
      · simp [Record.pending, ← same, ← agrees.pending, pending_of_found found]
      · simp [Record.pending, same]
    · exact congrArg (record.received other ++ ·) (waiting_of_kept found rfl other)

theorem abandonReceive (agrees : Agrees record network) (number : Nat) :
    Agrees ((.abandonReceive number, .done) :: record) (network.abandonReceive number) := by
  unfold Network.abandonReceive
  cases found : network.endpoints[number]? with
  | none =>
    refine agrees.of_links rfl rfl agrees.cut agrees.alone fun other =>
      ⟨rfl, rfl, rfl, ?_, fun _ => rfl⟩
    by_cases same : number = other
    · simp [Record.pending, ← same, ← agrees.pending, Network.pending, found]
    · simp [Record.pending, same]
  | some endpoint =>
    refine agrees.replace found rfl rfl (fun _ _ => ⟨rfl, rfl, rfl⟩) (fun _ => ⟨rfl, rfl⟩)
      (fun other => ?_) fun other => ?_
    · by_cases same : number = other
      · simp [Record.pending, ← same, ← agrees.pending, pending_of_found found]
      · simp [Record.pending, same]
    · exact congrArg (record.received other ++ ·) (waiting_of_kept found rfl other)

theorem resumeReceive (agrees : Agrees record network) (number : Nat) (closing : Bool) :
    Agrees
      ((.resumeReceive number closing, .found (network.resumeReceive number closing).1) :: record)
      (network.resumeReceive number closing).2 := by
  cases found : network.endpoints[number]? with
  | none =>
    simp only [Network.resumeReceive, found]
    exact agrees.of_links rfl rfl agrees.cut agrees.alone fun other =>
      ⟨rfl, rfl, rfl, by simp [Record.pending], fun _ => rfl⟩
  | some endpoint =>
    have waits := waiting_of_found found
    have pends := (agrees.pending number).symm.trans (pending_of_found found)
    rw [resumeReceive_of_found found]
    rcases resume_cases endpoint closing with
      ⟨resumed, -⟩ | ⟨first, rest, inbox, -, -, resumed⟩ | ⟨-, -, -, resumed⟩
    all_goals
      rw [resumed]
      refine agrees.replace found rfl rfl (fun _ _ => ⟨rfl, rfl, rfl⟩) (fun _ => ⟨rfl, rfl⟩)
        (fun other => ?_) fun other => ?_
      · by_cases same : number = other
        · simp [Record.pending, ← same, pends]
        · simp [Record.pending, same]
      · by_cases same : number = other
        · simp_all [Record.received]
        · simp [Record.received, same]

theorem close (agrees : Agrees record network) (number : Nat) :
    Agrees ((.close number, .done) :: record) (network.close number) := by
  cases opened : network.openName? number with
  | none =>
    rw [close_of_shut opened]
    refine agrees.of_links rfl rfl agrees.cut agrees.alone fun other =>
      ⟨rfl, ?_, rfl, rfl, fun _ => rfl⟩
    rw [Record.openName?]
    split
    · rename_i same
      rw [← same, ← agrees.opened, opened]
    · rfl
  | some name =>
    obtain ⟨bound, blocked, isolated, named, names, queues⟩ := close_of_open opened
    have due := Record.due_of_silent record (.close number) .done fun _ => rfl
    refine
      { cut := fun one other => by rw [blocked]; exact agrees.cut one other
        alone := fun name => by rw [isolated]; exact agrees.alone name
        leads := fun other holder => ?_
        named := fun other => by rw [named]; exact agrees.named other
        opened := fun other => by rw [names, Record.openName?, agrees.opened]
        pending := fun other => (queues other).2.trans (agrees.pending other)
        kept := fun other => by
          rw [(queues other).1, due]
          exact agrees.kept other }
    rw [bound, names, Std.ExtHashMap.getElem?_erase]
    have before := agrees.leads other holder
    have held := (agrees.leads name number).2 opened
    by_cases same : number = holder
    · subst same
      by_cases taken : name = other <;> simp [taken, before, opened]
    · by_cases taken : name = other
      · subst taken
        simp [same, ← before, held]
      · simp [taken, same, before]

/-- An operation keeps the agreement, once it is recorded. -/
theorem perform (agrees : Agrees record network) (operation : Operation) :
    Agrees ((operation, (network.perform operation).1) :: record)
      (network.perform operation).2 := by
  cases operation with
  | bind name => exact agrees.bind name
  | send number target bytes =>
    rw [perform_send]
    exact agrees.send number target bytes
  | broadcast number targets bytes => exact agrees.broadcast number targets bytes
  | beginReceive number => exact agrees.beginReceive number
  | resumeReceive number closing => exact agrees.resumeReceive number closing
  | abandonReceive number => exact agrees.abandonReceive number
  | partition left right => exact agrees.partition left right
  | heal left right => exact agrees.heal left right
  | isolate name => exact agrees.isolate name
  | healAll => exact agrees.healAll
  | close number => exact agrees.close number

end Agrees

/-- An endpoint that was bound, and has been closed. -/
def Course.Closed (course : Course) (number : Nat) : Prop :=
  course.record.name? number ≠ none ∧ course.record.openName? number = none

/-- A closed endpoint remains closed. -/
theorem Course.Closed.next
    {course : Course}
    {number : Nat}
    (closed : course.Closed number)
    (agrees : Agrees course.record course.network)
    (operation : Operation) :
    (course.next operation).Closed number := by
  obtain ⟨bound, shut⟩ := closed
  cases operation with
  | bind name =>
    cases held : course.network.bound[name]? with
    | some holder =>
      simp only [Closed, Course.next, perform, bind_of_bound held]
      exact ⟨bound, shut⟩
    | none =>
      obtain ⟨next, answer, -⟩ := bind_of_free held
      have other : course.network.endpoints.size ≠ number := by
        rintro rfl
        refine bound ?_
        rw [← agrees.named]
        simp [Network.name?]
      simp only [Closed, Course.next, perform, answer, Record.name?, Record.openName?, if_neg other]
      exact ⟨bound, shut⟩
  | close other =>
    refine ⟨bound, ?_⟩
    simp [Course.next, Record.openName?, shut]
  | _ => exact ⟨bound, shut⟩

/--
No receive begins at a closed endpoint, and one that waits there receives a datagram at most: those
that have received one and those that wait do not become more.
-/
theorem Course.Closed.served_le
    {course : Course}
    {number : Nat}
    (closed : course.Closed number)
    (agrees : Agrees course.record course.network)
    (operation : Operation) :
    ((course.next operation).record.received number).length +
        (course.next operation).record.pending number ≤
      (course.record.received number).length + course.record.pending number := by
  cases operation with
  | beginReceive other =>
    simp only [Course.next, perform]
    by_cases same : other = number
    · subst same
      rw [beginReceive_of_shut ((agrees.opened other).trans closed.2)]
      exact Nat.le_refl _
    · cases (course.network.beginReceive other).1 <;> simp [Record.received, Record.pending, same]
  | resumeReceive other closing =>
    simp only [Course.next, perform]
    by_cases same : other = number
    · subst same
      cases found : course.network.endpoints[other]? with
      | none => simp [resumeReceive, found, Record.received, Record.pending]
      | some endpoint =>
        rw [resumeReceive_of_found found]
        have pends := (agrees.pending other).symm.trans (pending_of_found found)
        rcases resume_cases endpoint closing with
          ⟨resumed, -⟩ | ⟨first, rest, -, waits, -, resumed⟩ | ⟨-, waits, -, resumed⟩
        all_goals
          simp [resumed, Record.received, Record.pending]
          try omega
    · cases (course.network.resumeReceive other closing).1 <;>
        simp [Record.received, Record.pending, same]
  | abandonReceive other =>
    simp only [Course.next, perform, Record.received, Record.pending]
    split <;> omega
  | _ => exact Nat.le_refl _

/-- Whatever is done after an endpoint is closed, it receives what had come to it before at most. -/
theorem Course.Closed.foldl
    {course : Course}
    {number : Nat}
    (closed : course.Closed number)
    (agrees : Agrees course.record course.network)
    (operations : List Operation) :
    let last := operations.foldl Course.next course
    last.Closed number ∧
      last.record.due number = course.record.due number ∧
      course.record.received number <+: last.record.received number ∧
      (last.record.received number).length + last.record.pending number ≤
        (course.record.received number).length + course.record.pending number := by
  induction operations generalizing course with
  | nil => exact ⟨closed, rfl, List.prefix_rfl, Nat.le_refl _⟩
  | cons operation operations step =>
    obtain ⟨still, due, received, served⟩ :=
      step (closed.next agrees operation) (agrees.perform operation)
    exact ⟨still, due.trans (Record.due_of_shut closed.2 _),
      (Record.received_prefix course.record number _).trans received,
      Nat.le_trans served (closed.served_le agrees operation)⟩

/-! ## The law -/

end Network

end ClusterMembership
