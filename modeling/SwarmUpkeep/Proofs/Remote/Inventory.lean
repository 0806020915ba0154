import Mathlib.Data.List.TakeWhile
import SwarmUpkeep.Proofs.Json.Record
import SwarmUpkeep.Remote.ScaleSetApi

/-!
# What the provider tells of machines

What an item of a listing says of a machine or of the interfaces of one, told by its document alone.
A machine is named by the last part of its path. Each of its configurations that has an address is
an interface; one that is not marked is the primary one if there is no other.
-/

namespace SwarmUpkeep.Inventory

open Json Document
open ScaleSetApi

variable {d : Document}

/-! ## Machines -/

def TellsComputer (d : Document) (name : String) : Prop :=
  ∃ field, IsRecord ["computerName"] d [field] ∧ IsRequired IsText field name

/-- Whether the latest model is applied, and maybe the name of a computer. -/
def TellsProperties (d : Document) (told : Bool × Option String) : Prop :=
  ∃ applied profile, IsRecord ["latestModelApplied", "osProfile"] d [applied, profile] ∧
    HasDefault false IsBool applied told.1 ∧ IsOptional TellsComputer profile told.2

/-- An item tells a machine by its identifier and by properties, which may be missing. -/
def TellsMachine (d : Document) (machine : Machine) : Prop :=
  ∃ id field latest name, IsRecord ["instanceId", "properties"] d [id, field] ∧
    IsRequired IsText id machine.id ∧
    HasDefault (false, none) TellsProperties field (latest, name) ∧
    machine.computerName = name.getD "" ∧ machine.latestModelApplied = latest

/-! ## Interfaces -/

def TellsResource (d : Document) (path : String) : Prop :=
  ∃ field, IsRecord ["id"] d [field] ∧ IsRequired IsText field path

/-- An address and a mark, both of which may be missing. -/
def TellsAddress (d : Document) (told : Option String × Option Bool) : Prop :=
  ∃ address mark, IsRecord ["privateIPAddress", "primary"] d [address, mark] ∧
    IsOptional IsText address told.1 ∧ IsOptional IsBool mark told.2

def TellsConfiguration (d : Document) (told : Option String × Option Bool) : Prop :=
  ∃ field, IsRecord ["properties"] d [field] ∧ IsRequired TellsAddress field told

/-- The path of a machine, if there is one, and configurations. -/
def TellsAttachment (d : Document) (told : InterfaceDocument) : Prop :=
  ∃ machine field, IsRecord ["virtualMachine", "ipConfigurations"] d [machine, field] ∧
    IsOptional TellsResource machine told.machine ∧
    HasDefault [] (IsArray TellsConfiguration) field told.configurations

def TellsInterface (d : Document) (told : InterfaceDocument) : Prop :=
  ∃ field, IsRecord ["properties"] d [field] ∧ IsRequired TellsAttachment field told

/-- The last part of a path has no slash, and nothing or a slash stands before it. -/
def IsLastPart (path name : String) : Prop :=
  '/' ∉ name.toList ∧ (path = name ∨ ∃ front, path.toList = front ++ '/' :: name.toList)

/-- The interfaces of a machine by its configurations, in their order: one for each that has an
address. -/
inductive Configured (machine : String) (single : Bool) :
    List (Option String × Option Bool) → List NetworkInterface → Prop
  | nil : Configured machine single [] []
  | unaddressed {ip : Option String} {mark : Option Bool}
      {configurations : List (Option String × Option Bool)} {interfaces : List NetworkInterface}
      (h : ∀ text, ip = some text → Address.parse? text = none)
      (hrest : Configured machine single configurations interfaces) :
      Configured machine single ((ip, mark) :: configurations) interfaces
  | addressed {text : String} {address : Address} {mark : Option Bool}
      {configurations : List (Option String × Option Bool)} {interfaces : List NetworkInterface}
      (h : Address.parse? text = some address)
      (hrest : Configured machine single configurations interfaces) :
      Configured machine single ((some text, mark) :: configurations)
        (⟨machine, address, mark.getD single⟩ :: interfaces)

/-- The interfaces of the machine that an interface is attached to, if there is one. -/
inductive Attached : InterfaceDocument → List NetworkInterface → Prop
  | nowhere {configurations : List (Option String × Option Bool)} :
      Attached ⟨none, configurations⟩ []
  | machine {path name : String} {configurations : List (Option String × Option Bool)}
      {interfaces : List NetworkInterface} (hname : IsLastPart path name)
      (h : Configured name (configurations.length = 1) configurations interfaces) :
      Attached ⟨some path, configurations⟩ interfaces

def TellsInterfaces (d : Document) (interfaces : List NetworkInterface) : Prop :=
  ∃ told, TellsInterface d told ∧ Attached told interfaces

/-! ## Readers -/

theorem computerName?_reads : IsReadBy TellsComputer computerName? := by
  intro d name
  exact (read_field_iff (required text?)).trans
    (exists_congr fun _ => and_congr_right fun _ => required_eq_some_iff text?_eq_some_iff)

theorem machineProperties?_reads : IsReadBy TellsProperties machineProperties? := by
  rintro d ⟨latest, name⟩
  refine (read_fields_iff fun applied profile => do
    return (← withDefault false bool? applied, ← optional computerName? profile)).trans ?_
  simp [TellsProperties, Option.bind_eq_some_iff, withDefault_eq_some_iff bool?_eq_some_iff,
    optional_eq_some_iff computerName?_reads]

theorem machine?_reads : IsReadBy TellsMachine machine? := by
  intro d machine
  refine (read_fields_iff fun id properties => do
    let id ← required text? id
    let told ← withDefault (false, none) machineProperties? properties
    return (⟨id, told.2.getD "", told.1⟩ : Machine)).trans ?_
  simp only [Option.bind_eq_bind, Option.bind_eq_some_iff, Option.pure_def, Option.some.injEq,
    required_eq_some_iff text?_eq_some_iff, withDefault_eq_some_iff machineProperties?_reads]
  constructor
  · rintro ⟨id, field, hrecord, text, hid, ⟨latest, name⟩, hfield, rfl⟩
    exact ⟨id, field, latest, name, hrecord, hid, hfield, rfl, rfl⟩
  · rintro ⟨id, field, latest, name, hrecord, hid, hfield, hname, rfl⟩
    exact ⟨id, field, hrecord, machine.id, hid, ⟨_, name⟩, hfield, by rw [← hname]⟩

theorem resourceId?_reads : IsReadBy TellsResource resourceId? := by
  intro d path
  exact (read_field_iff (required text?)).trans
    (exists_congr fun _ => and_congr_right fun _ => required_eq_some_iff text?_eq_some_iff)

theorem configuration?_reads : IsReadBy TellsConfiguration configuration? := by
  intro d told
  refine (read_field_iff (required _)).trans
    (exists_congr fun _ => and_congr_right fun _ => required_eq_some_iff ?_)
  rintro d ⟨ip, primary⟩
  refine (read_fields_iff fun address mark => do
    return (← optional text? address, ← optional bool? mark)).trans ?_
  simp [TellsAddress, Option.bind_eq_some_iff, optional_eq_some_iff text?_eq_some_iff,
    optional_eq_some_iff bool?_eq_some_iff]

theorem interface?_reads : IsReadBy TellsInterface interface? := by
  intro d told
  refine (read_field_iff (required _)).trans
    (exists_congr fun _ => and_congr_right fun _ => required_eq_some_iff ?_)
  rintro d ⟨machine, configurations⟩
  refine (read_fields_iff fun machine configurations => do
    return (⟨← optional resourceId? machine,
      ← withDefault [] (list? configuration?) configurations⟩ : InterfaceDocument)).trans ?_
  simp [TellsAttachment, Option.bind_eq_some_iff, optional_eq_some_iff resourceId?_reads,
    withDefault_eq_some_iff (list?_eq_some_iff configuration?_reads)]

/-! ## Interfaces of an item -/

/-- The last part of a path is what stands behind its last slash. -/
theorem isLastPart_iff {path name : String} : IsLastPart path name ↔ name = lastSegment path := by
  have hfree {c : Char} {cs : List Char} (h : c ∈ cs.takeWhile (· ≠ '/')) : c ≠ '/' := by
    simpa using List.mem_takeWhile_imp h
  constructor
  · rintro ⟨hname, hpath⟩
    have hkept : ∀ c ∈ name.toList.reverse, decide (c ≠ '/') = true := by
      intro c hc
      rw [decide_eq_true_eq]
      rintro rfl
      exact hname (List.mem_reverse.mp hc)
    have htake : path.toList.reverse.takeWhile (· ≠ '/') = name.toList.reverse := by
      rcases hpath with rfl | ⟨front, hfront⟩
      · exact List.takeWhile_eq_self_iff.mpr hkept
      · rw [hfront, List.reverse_append, List.reverse_cons, List.append_assoc,
          List.takeWhile_append_of_pos hkept]
        simp
    rw [lastSegment, htake, List.reverse_reverse, String.ofList_toList]
  · rintro rfl
    have hsplit := @List.takeWhile_append_dropWhile _ (fun c : Char => decide (c ≠ '/'))
      path.toList.reverse
    unfold lastSegment
    constructor
    · rw [String.toList_ofList, List.mem_reverse]
      exact fun h => hfree h rfl
    · cases hrest : path.toList.reverse.dropWhile (· ≠ '/') with
      | nil =>
          rw [hrest, List.append_nil] at hsplit
          refine .inl ?_
          rw [hsplit, List.reverse_reverse, String.ofList_toList]
      | cons c rest =>
          have hstop := List.head?_dropWhile_not (fun c : Char => decide (c ≠ '/'))
            path.toList.reverse
          rw [hrest] at hstop hsplit
          obtain rfl : c = '/' := by simpa using hstop
          have hpath := congrArg List.reverse hsplit
          rw [List.reverse_reverse, List.reverse_append, List.reverse_cons,
            List.append_assoc] at hpath
          refine .inr ⟨rest.reverse, ?_⟩
          rw [String.toList_ofList]
          exact hpath.symm

/-- The interface of a configuration, if it has an address. -/
def configured? (machine : String) (single : Bool) (configuration : Option String × Option Bool) :
    Option NetworkInterface :=
  (configuration.1.bind Address.parse?).map fun ip =>
    ⟨machine, ip, configuration.2.getD single⟩

theorem configured_iff {machine : String} {single : Bool}
    {configurations : List (Option String × Option Bool)} {interfaces : List NetworkInterface} :
    Configured machine single configurations interfaces ↔
      interfaces = configurations.filterMap (configured? machine single) := by
  constructor
  · intro h
    induction h with
    | nil => rfl
    | unaddressed h hrest ih =>
        rw [List.filterMap_cons_none, ih]
        rw [configured?, Option.bind_eq_none_iff.mpr h]
        rfl
    | addressed h hrest ih =>
        rw [List.filterMap_cons_some, ih]
        rw [configured?, Option.bind_some, h]
        rfl
  · rintro rfl
    induction configurations with
    | nil => exact .nil
    | cons configuration configurations ih =>
        obtain ⟨ip, mark⟩ := configuration
        cases hip : ip.bind Address.parse? with
        | none =>
            rw [List.filterMap_cons_none (by rw [configured?, hip]; rfl)]
            exact .unaddressed (Option.bind_eq_none_iff.mp hip) ih
        | some address =>
            obtain ⟨text, rfl, htext⟩ := Option.bind_eq_some_iff.mp hip
            rw [List.filterMap_cons_some (by rw [configured?, hip]; rfl)]
            exact .addressed htext ih

/-- The interfaces of an item are those that are read from it. -/
theorem attached_iff {told : InterfaceDocument} {interfaces : List NetworkInterface} :
    Attached told interfaces ↔ interfaces = told.addresses := by
  obtain ⟨machine, configurations⟩ := told
  have haddresses (path : String) : InterfaceDocument.addresses ⟨some path, configurations⟩ =
      configurations.filterMap (configured? (lastSegment path) (configurations.length == 1)) := by
    refine congrArg (List.filterMap · configurations) ?_
    funext ⟨ip, mark⟩
    dsimp only [configured?]
    cases ip.bind Address.parse? <;> rfl
  cases machine with
  | none =>
      constructor
      · rintro ⟨⟩
        rfl
      · rintro rfl
        exact .nowhere
  | some path =>
      constructor
      · rintro (_ | ⟨hname, h⟩)
        rw [configured_iff.mp h, isLastPart_iff.mp hname, haddresses]
        rfl
      · rintro rfl
        exact .machine (isLastPart_iff.mpr rfl) (configured_iff.mpr (haddresses path))

end SwarmUpkeep.Inventory
