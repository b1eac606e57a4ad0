import Mathlib.Data.Finset.Option
import TunnelKeeper.Route.Table

/-!
# Numbering — what the events of a route say

A route table is moved from one route to the next, and each move is told as events
(`RouteTable.follow`).  Everything about a run is decided by the routes alone:

* `Numbered`: the table knows the addresses that were seen, in the order in which they were first
  seen, and the present one is that of the last route.  A number is a place in that order, so it
  stays for ever (`numberIn_append`), and two addresses never share one (`numberIn_inj`).
* `Numbered.told`: a move is told by the numbers of the two addresses, the new network first.
* `Heard`: what is told of one network takes turns (`turns`), and it is present after an odd number
  of events.  Whoever plays the events of a run from nothing has the present network (`replay`).
-/

namespace TunnelKeeper

/-! ### Runs -/

/-- Moves from route to route; gives the events of all moves. -/
def RouteTable.follow (table : RouteTable) : List (Option IpAddress) →
    RouteTable × List NetworkEvent
  | [] => (table, [])
  | route :: routes =>
    let moved := table.transition route
    let rest := moved.1.follow routes
    (rest.1, moved.2 ++ rest.2)

theorem RouteTable.follow_concat (table : RouteTable) (routes : List (Option IpAddress))
    (next : Option IpAddress) :
    table.follow (routes ++ [next]) =
      (((table.follow routes).1.transition next).1,
        (table.follow routes).2 ++ ((table.follow routes).1.transition next).2) := by
  induction routes generalizing table with
  | nil => simp only [List.nil_append, follow, List.append_nil]
  | cons route routes ih => simp only [List.cons_append, follow, ih, List.append_assoc]

/-- The networks after an event, of those there were. -/
def NetworkEvent.play (networks : Finset NetworkId) : NetworkEvent → Finset NetworkId
  | .available id => insert id networks
  | .lost id => networks.erase id

/-- The networks after events, of those there were. -/
def replay (networks : Finset NetworkId) (events : List NetworkEvent) : Finset NetworkId :=
  events.foldl NetworkEvent.play networks

theorem replay_append (networks : Finset NetworkId) (events more : List NetworkEvent) :
    replay networks (events ++ more) = replay (replay networks events) more :=
  List.foldl_append

/-- What tells a move from one network to another: the new one first. -/
def tidings (old new : Option NetworkId) : List NetworkEvent :=
  (new.map .available).toList ++ (old.map .lost).toList

/-- The network of an event. -/
def NetworkEvent.network : NetworkEvent → NetworkId
  | .available id => id
  | .lost id => id

/-- What events say of one network. -/
def about (id : NetworkId) (events : List NetworkEvent) : List NetworkEvent :=
  events.filter (·.network = id)

/-- The first events of a network that comes and goes. -/
def turns (id : NetworkId) (n : Nat) : List NetworkEvent :=
  (List.range n).map fun k => if k % 2 = 0 then .available id else .lost id

theorem about_append (id : NetworkId) (events more : List NetworkEvent) :
    about id (events ++ more) = about id events ++ about id more :=
  List.filter_append ..

theorem turns_succ (id : NetworkId) (n : Nat) :
    turns id (n + 1) = turns id n ++ [if n % 2 = 0 then .available id else .lost id] := by
  rw [turns, List.range_succ, List.map_append]
  rfl

/-- A move says at most one thing of a network, for the new one is not the old one. -/
theorem about_tidings {old new : Option NetworkId} (hne : new ≠ old) (id : NetworkId) :
    about id (tidings old new) =
      if new = some id then [.available id] else if old = some id then [.lost id] else [] := by
  cases old <;> cases new
  case none.none => exact absurd rfl hne
  case none.some n | some.none n =>
    by_cases hn : n = id <;> simp [tidings, about, NetworkEvent.network, hn]
  case some.some o n =>
    have hno : n ≠ o := fun hc => hne (congrArg some hc)
    by_cases hn : n = id <;> by_cases ho : o = id <;>
      simp_all [tidings, about, NetworkEvent.network]

/-- A move leaves the new network. -/
theorem replay_tidings {old new : Option NetworkId} (hne : new ≠ old) :
    replay old.toFinset (tidings old new) = new.toFinset := by
  cases old <;> cases new
  case none.none => exact absurd rfl hne
  case none.some n => rfl
  case some.none o => exact Finset.erase_singleton o
  case some.some o n =>
    have hno : n ≠ o := fun hc => hne (congrArg some hc)
    show (insert n {o} : Finset NetworkId).erase o = {n}
    rw [Finset.erase_insert_of_ne hno, Finset.erase_singleton]
    rfl

/-! ### Numbers -/

/-- The addresses of routes, in the order in which they are first seen. -/
def seen (routes : List (Option IpAddress)) : List IpAddress := (routes.filterMap id).eraseDups

/-- The number of an address by the routes. -/
def numberIn (routes : List (Option IpAddress)) (ip : IpAddress) : NetworkId :=
  (seen routes).idxOf ip + 1

theorem mem_seen {routes : List (Option IpAddress)} {ip : IpAddress} :
    ip ∈ seen routes ↔ some ip ∈ routes := by
  simp [seen]

theorem seen_concat_none (routes : List (Option IpAddress)) :
    seen (routes ++ [none]) = seen routes := by
  simp [seen]

theorem seen_concat_some (routes : List (Option IpAddress)) (ip : IpAddress) :
    seen (routes ++ [some ip]) =
      if ip ∈ seen routes then seen routes else seen routes ++ [ip] := by
  have happ : seen (routes ++ [some ip]) =
      seen routes ++ ([ip].removeAll (routes.filterMap id)).eraseDups := by
    rw [seen, List.filterMap_append]
    exact List.eraseDups_append
  rw [happ]
  split
  case isTrue h =>
    have hm : ip ∈ routes.filterMap id := List.mem_eraseDups.1 h
    rw [List.removeAll, List.filter_cons_of_neg (by simpa using hm)]
    exact List.append_nil _
  case isFalse h =>
    have hm : ip ∉ routes.filterMap id := fun hm => h (List.mem_eraseDups.2 hm)
    rw [List.removeAll, List.filter_cons_of_pos (by simpa using hm)]
    rfl

/-- More routes leave the addresses seen where they are. -/
theorem seen_append (routes more : List (Option IpAddress)) :
    seen routes <+: seen (routes ++ more) := by
  rw [seen, seen, List.filterMap_append, List.eraseDups_append]
  exact List.prefix_append _ _

/-- **A number is for ever.** -/
theorem numberIn_append {routes : List (Option IpAddress)} {ip : IpAddress}
    (h : ip ∈ seen routes) (more : List (Option IpAddress)) :
    numberIn (routes ++ more) ip = numberIn routes ip := by
  obtain ⟨rest, hrest⟩ := seen_append routes more
  rw [numberIn, ← hrest, List.idxOf_append_of_mem h, numberIn]

/-- **Two addresses never share a number.** -/
theorem numberIn_inj {routes : List (Option IpAddress)} {ip ip' : IpAddress}
    (h : ip ∈ seen routes) : numberIn routes ip = numberIn routes ip' ↔ ip = ip' := by
  rw [numberIn, numberIn, Nat.add_right_cancel_iff, List.idxOf_inj h]

/-- **The table of routes**: it knows the addresses seen, and the last route is the present one. -/
structure Numbered (routes : List (Option IpAddress)) (table : RouteTable) : Prop where
  known : table.known = seen routes
  current : table.current = routes.getLast?.join

namespace Numbered

variable {routes : List (Option IpAddress)} {table : RouteTable}

theorem fresh : Numbered [] {} := ⟨rfl, rfl⟩

theorem idOf (h : Numbered routes table) (ip : IpAddress) :
    table.idOf ip = numberIn routes ip := by
  rw [RouteTable.idOf, h.known, numberIn]

/-- The present address has been seen. -/
theorem current_mem (h : Numbered routes table) {ip : IpAddress}
    (hc : table.current = some ip) : ip ∈ table.known := by
  rw [h.current, Option.join_eq_some_iff] at hc
  rw [h.known, mem_seen]
  exact List.mem_of_getLast? hc

/-- The table knows each address once. -/
theorem nodup (h : Numbered routes table) : table.known.Nodup := by
  rw [h.known]
  clear h
  induction routes using List.reverseRecOn with
  | nil => exact List.nodup_nil
  | append_singleton routes route ih =>
      cases route with
      | none => rwa [seen_concat_none]
      | some ip =>
          rw [seen_concat_some]
          split
          case isTrue => exact ih
          case isFalse hip => exact List.concat_eq_append ▸ ih.concat hip

/-- Numbers are places, from one on. -/
theorem numbers (h : Numbered routes table) :
    table.known.map table.idOf = List.range' 1 table.known.length := by
  refine List.ext_getElem (by simp) fun i hi hi' => ?_
  rw [List.getElem_map, List.getElem_range', RouteTable.idOf, h.nodup.idxOf_getElem, one_mul,
    Nat.add_comm]

/-- A move is one from number to number. -/
theorem moves (h : Numbered routes table) {next : Option IpAddress}
    (hnext : next ≠ table.current) :
    next.map (numberIn (routes ++ [next])) ≠ table.current.map (numberIn routes) := by
  intro hm
  cases next with
  | none => exact hnext (Option.map_eq_none_iff.1 hm.symm).symm
  | some ip =>
      obtain ⟨old, hold, hid⟩ := Option.map_eq_some_iff.1 hm.symm
      have hseen : old ∈ seen routes := h.known ▸ h.current_mem hold
      have hseen' : old ∈ seen (routes ++ [some ip]) := (seen_append routes _).subset hseen
      rw [← numberIn_append hseen [some ip]] at hid
      exact hnext (hold.trans (congrArg some ((numberIn_inj hseen').1 hid))).symm

theorem learn (h : Numbered routes table) (ip : IpAddress) :
    (table.learn ip).known = seen (routes ++ [some ip]) := by
  rw [seen_concat_some, RouteTable.learn, ← h.known]
  by_cases hip : ip ∈ table.known
  · rw [if_pos (List.contains_iff_mem.2 hip), if_pos hip]
  · rw [if_neg (fun hc => hip (List.contains_iff_mem.1 hc)), if_neg hip]

/-- **A move keeps the numbering**, and tells the new network and then the old one. -/
theorem told (h : Numbered routes table) (next : Option IpAddress) :
    Numbered (routes ++ [next]) (table.transition next).1 ∧
      (table.transition next).2 =
        if next = table.current then []
        else tidings (table.current.map (numberIn routes))
          (next.map (numberIn (routes ++ [next]))) := by
  have hlast : next = (routes ++ [next]).getLast?.join := by simp
  by_cases hnext : next = table.current
  · refine ⟨?_, by rw [RouteTable.transition, if_pos hnext, if_pos hnext]⟩
    rw [RouteTable.transition, if_pos hnext]
    refine ⟨?_, hnext.symm.trans hlast⟩
    cases next with
    | none => rw [h.known, seen_concat_none]
    | some ip => rw [seen_concat_some, ← h.known, if_pos (h.current_mem hnext.symm)]
  · -- The number of the old network is the same before and after the new one is learned.
    have hold : ∀ old, table.current = some old →
        numberIn (routes ++ [next]) old = numberIn routes old := fun old ho =>
      numberIn_append (h.known ▸ h.current_mem ho) [next]
    cases next with
    | none =>
        rw [RouteTable.transition, if_neg hnext, if_neg hnext]
        refine ⟨⟨h.known.trans (seen_concat_none routes).symm, hlast⟩, ?_⟩
        cases hc : table.current with
        | none => rfl
        | some old => exact congrArg (fun n => [NetworkEvent.lost n]) (h.idOf old)
    | some ip =>
        have hid : ∀ old, (table.learn ip).idOf old = numberIn (routes ++ [some ip]) old :=
          fun old => by rw [RouteTable.idOf, h.learn ip, numberIn]
        rw [RouteTable.transition, if_neg hnext, if_neg hnext]
        refine ⟨⟨h.learn ip, hlast⟩, ?_⟩
        cases hc : table.current with
        | none => exact congrArg (fun n => [NetworkEvent.available n]) (hid ip)
        | some old =>
            show [NetworkEvent.available ((table.learn ip).idOf ip),
              .lost ((table.learn ip).idOf old)] = _
            rw [hid, hid, hold old hc]
            rfl

end Numbered

/-- **Every run numbers its routes.** -/
theorem RouteTable.numbered_follow (routes : List (Option IpAddress)) :
    Numbered routes (RouteTable.follow {} routes).1 := by
  induction routes using List.reverseRecOn with
  | nil => exact .fresh
  | append_singleton routes route ih =>
      rw [follow_concat]
      exact (ih.told route).1

/-! ### What is heard -/

/-- **What is heard of the networks** when one of them, or none, is the present one: each has taken
turns, and what is left is the present one. -/
structure Heard (present : Option NetworkId) (events : List NetworkEvent) : Prop where
  turns : ∀ id, ∃ n, about id events = turns id n ∧ (n % 2 = 1 ↔ present = some id)
  replay : replay ∅ events = present.toFinset

namespace Heard

variable {present : Option NetworkId} {events : List NetworkEvent}

theorem nothing : Heard none [] := ⟨fun _ => ⟨0, rfl, by simp⟩, rfl⟩

/-- **A move to another network is heard.** -/
theorem moved (h : Heard present events) {next : Option NetworkId} (hne : next ≠ present) :
    Heard next (events ++ tidings present next) := by
  refine ⟨fun id => ?_, by rw [replay_append, h.replay, replay_tidings hne]⟩
  obtain ⟨n, hn, hp⟩ := h.turns id
  rw [about_append, about_tidings hne, hn]
  by_cases hnew : next = some id
  · have hgone : present ≠ some id := fun hc => hne (hnew.trans hc.symm)
    have heven : n % 2 = 0 := by
      have := mt hp.1 hgone
      omega
    refine ⟨n + 1, by rw [if_pos hnew, turns_succ, if_pos heven], ?_⟩
    exact ⟨fun _ => hnew, fun _ => by omega⟩
  by_cases hold : present = some id
  · have hodd : n % 2 = 1 := hp.2 hold
    refine ⟨n + 1, by rw [if_neg hnew, if_pos hold, turns_succ, if_neg (by omega)], ?_⟩
    exact ⟨fun hc => absurd hc (by omega), fun hc => absurd hc hnew⟩
  · refine ⟨n, by rw [if_neg hnew, if_neg hold, List.append_nil], ?_⟩
    exact ⟨fun hc => absurd (hp.1 hc) hold, fun hc => absurd hc hnew⟩

end Heard

theorem RouteTable.heard_follow (routes : List (Option IpAddress)) :
    Heard ((RouteTable.follow {} routes).1.current.map (RouteTable.follow {} routes).1.idOf)
      (RouteTable.follow {} routes).2 := by
  induction routes using List.reverseRecOn with
  | nil => exact .nothing
  | append_singleton routes next ih =>
      have h := RouteTable.numbered_follow routes
      obtain ⟨h', htold⟩ := h.told next
      rw [follow_concat]
      generalize (RouteTable.follow {} routes).1 = table at h h' htold ih ⊢
      rw [funext h.idOf] at ih
      rw [htold, funext h'.idOf, show (table.transition next).1.current = next by simp [h'.current]]
      split
      case isTrue hnext =>
        have hkept : next.map (numberIn (routes ++ [next])) =
            table.current.map (numberIn routes) := by
          rw [hnext]
          exact Option.map_congr fun ip hip => numberIn_append (h.known ▸ h.current_mem hip) _
        rw [List.append_nil, hkept]
        exact ih
      case isFalse hnext => exact ih.moved (h.moves hnext)

/-! ### States -/

/-- A number is the place of one address. -/
theorem RouteTable.getElem?_known {table : RouteTable} (hn : table.known.Nodup) {n : Nat}
    {ip : IpAddress} :
    table.known[n]? = some ip ↔ ip ∈ table.known ∧ table.idOf ip = n + 1 := by
  rw [RouteTable.idOf, Nat.add_right_cancel_iff]
  constructor
  · intro h
    obtain ⟨hlt, rfl⟩ := List.getElem?_eq_some_iff.1 h
    exact ⟨List.getElem_mem hlt, hn.idxOf_getElem n hlt⟩
  · rintro ⟨hip, rfl⟩
    exact List.getElem?_idxOf hip

/-- **How networks stand**: the present one is connected, the others with a number are not. -/
theorem RouteTable.stateOf_eq {table : RouteTable} (hn : table.known.Nodup)
    (hc : ∀ ip, table.current = some ip → ip ∈ table.known) (id : NetworkId) :
    table.stateOf id =
      if table.current.map table.idOf = some id then some .connected
      else if 1 ≤ id ∧ id ≤ table.known.length then some .disconnected else none := by
  cases id with
  | zero => simp [stateOf, idOf]
  | succ n =>
      cases hip : table.known[n]? with
      | none =>
          have hlen := List.getElem?_eq_none_iff.1 hip
          have hother : table.current.map table.idOf ≠ some (n + 1) := by
            intro hcur
            obtain ⟨ip, hcur, hid⟩ := Option.map_eq_some_iff.1 hcur
            rw [(getElem?_known hn).2 ⟨hc ip hcur, hid⟩] at hip
            cases hip
          have hbeyond : ¬ (1 ≤ n + 1 ∧ n + 1 ≤ table.known.length) := by omega
          rw [stateOf, hip, if_neg hother, if_neg hbeyond, Option.map_none]
      | some ip =>
          obtain ⟨hlt, -⟩ := List.getElem?_eq_some_iff.1 hip
          have hmem := (getElem?_known hn).1 hip
          -- The present address has the number only if it is the one at its place.
          have hwhich : table.current = some ip ↔ table.current.map table.idOf = some (n + 1) := by
            refine ⟨fun h => by rw [h, Option.map_some, hmem.2], fun h => ?_⟩
            obtain ⟨ip', hcur, hid⟩ := Option.map_eq_some_iff.1 h
            rw [← hip, (getElem?_known hn).2 ⟨hc ip' hcur, hid⟩, hcur]
          have hwithin : 1 ≤ n + 1 ∧ n + 1 ≤ table.known.length := by omega
          rw [stateOf, hip, Option.map_some, if_pos hwithin]
          simp only [hwhich]
          split <;> rfl

theorem RouteTable.known_subset_learn (table : RouteTable) (ip : IpAddress) :
    table.known ⊆ (table.learn ip).known := by
  unfold RouteTable.learn
  split
  case isTrue => exact List.Subset.refl _
  case isFalse => exact List.subset_append_left _ _

end TunnelKeeper
