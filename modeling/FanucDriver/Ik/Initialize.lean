import FanucDriver.Ik.Turns

/-!
# Configuring the plugin (`initialize`)

* `UrdfJoint`, `UrdfLink` — what is read of the robot description.
* `Members` — the members of the plugin that `initialize` fills in.
* `walk` — the way from the tip to the base; `none` where a null pointer is dereferenced.
* `initializePlugin` — the result and the members.
* `Path`, `Path.walk_eq` — a path from the tip to the base, and how much of it is taken in.
* `initialize_iff` — it succeeds when the joints on the path are as many as the solver's.
* `initialize_again` — every further call fails, with the plugin left active.
-/

set_option autoImplicit false

namespace FanucDriver

namespace Ik

/-- `urdf::Joint::type` -/
inductive UrdfJointType where
  | UNKNOWN
  | REVOLUTE
  | CONTINUOUS
  | PRISMATIC
  | FLOATING
  | PLANAR
  | FIXED
  deriving DecidableEq, Repr

/-- `urdf::Joint`; `limits` and `safety` are the lower and upper limits behind the pointers. -/
structure UrdfJoint (K : Type) where
  name : String
  type : UrdfJointType
  limits : Option (K × K)
  safety : Option (K × K)

/-- `urdf::Link` -/
structure UrdfLink (K : Type) where
  name : String
  parentJoint : Option (UrdfJoint K)

/-- The members that `initialize` fills in; the three vectors of limits are one list. -/
structure Members (K : Type) where
  jointNames : List String
  limits : List (JointLimit K)
  linkNames : List String
  active : Bool

/-- A plugin that has not been initialized. -/
def Members.fresh (K : Type) : Members K := ⟨[], [], [], false⟩

section Walk

variable {K : Type} [Neg K]

/-- The limits of a joint: `lower` and `upper` are `float`s. -/
def UrdfJoint.jointLimit (M_PI : K) (toFloat : K → K) (j : UrdfJoint K) : Option (JointLimit K) :=
  if j.type ≠ .CONTINUOUS then
    (j.safety.or j.limits).map fun l => ⟨true, toFloat l.1, toFloat l.2⟩
  else some ⟨false, -M_PI, M_PI⟩

/-- The joint of a link, unless it is fixed or of unknown type. -/
def UrdfLink.movable (link : UrdfLink K) : Option (UrdfJoint K) :=
  link.parentJoint.filter fun j => j.type ≠ .UNKNOWN ∧ j.type ≠ .FIXED

/-- The body of the loop. -/
def Members.addLink (M_PI : K) (toFloat : K → K) (m : Members K) (link : UrdfLink K) :
    Option (Members K) :=
  let m := { m with linkNames := m.linkNames ++ [link.name] }
  match link.movable with
  | none => some m
  | some j =>
    match j.jointLimit M_PI toFloat with
    | none => none
    | some l => some { m with jointNames := m.jointNames ++ [j.name], limits := m.limits ++ [l] }

/-- The loop, over the links from the tip up. -/
def walk (M_PI : K) (toFloat : K → K) (base : String) (numJoints : Nat) :
    List (UrdfLink K) → Members K → Option (Members K)
  | [], _ => none
  | link :: links, m =>
    if link.name ≠ base ∧ m.jointNames.length ≤ numJoints then
      match m.addLink M_PI toFloat link with
      | none => none
      | some m => walk M_PI toFloat base numJoints links m
    else some m

/-- The end of `initialize`. -/
def Members.finish (numJoints : Nat) (m : Members K) : Bool × Members K :=
  if m.jointNames.length ≠ numJoints then (false, m)
  else (true, ⟨m.jointNames.reverse, m.limits.reverse, m.linkNames.reverse, true⟩)

/-- `initialize`; `links` are the links from the tip up, where the description is found. -/
def initializePlugin (M_PI : K) (toFloat : K → K) (solver : Solver K) (base : String)
    (links : Option (List (UrdfLink K))) (m : Members K) : Option (Bool × Members K) :=
  if solver.freeParameters.length > 1 then some (false, m)
  else
    match links with
    | none => some (false, m)
    | some links =>
      (walk M_PI toFloat base solver.numJoints links m).map (·.finish solver.numJoints)

/-- The result of the last of `n + 1` calls with the same arguments, and the members after it. -/
def initializeAgain (M_PI : K) (toFloat : K → K) (solver : Solver K) (base : String)
    (links : Option (List (UrdfLink K))) : Nat → Members K → Option (Bool × Members K)
  | 0, m => initializePlugin M_PI toFloat solver base links m
  | n + 1, m =>
    match initializePlugin M_PI toFloat solver base links m with
    | none => none
    | some r => initializeAgain M_PI toFloat solver base links n r.2

/-! ## The way to the base -/

/-- A path of links from the tip to the base, with its movable joints and their limits from the tip
on. -/
inductive Path (M_PI : K) (toFloat : K → K) (base : String) :
    List (UrdfLink K) → List (String × JointLimit K) → Prop
  | nil : Path M_PI toFloat base [] []
  /-- a link without a joint -/
  | root {name : String} {path joints} (below : name ≠ base)
      (rest : Path M_PI toFloat base path joints) :
      Path M_PI toFloat base (⟨name, none⟩ :: path) joints
  /-- a joint that does not move -/
  | rigid {name : String} {j : UrdfJoint K} {path joints} (below : name ≠ base)
      (type : j.type = .UNKNOWN ∨ j.type = .FIXED) (rest : Path M_PI toFloat base path joints) :
      Path M_PI toFloat base (⟨name, some j⟩ :: path) joints
  /-- a joint without limits -/
  | continuous {name : String} {j : UrdfJoint K} {path joints} (below : name ≠ base)
      (type : j.type = .CONTINUOUS) (rest : Path M_PI toFloat base path joints) :
      Path M_PI toFloat base (⟨name, some j⟩ :: path) ((j.name, ⟨false, -M_PI, M_PI⟩) :: joints)
  /-- a joint with the limits of its safety controller, or else its own -/
  | limited {name : String} {j : UrdfJoint K} {lower upper : K} {path joints} (below : name ≠ base)
      (type : j.type ∈ [.REVOLUTE, .PRISMATIC, .FLOATING, .PLANAR])
      (limits : j.safety = some (lower, upper) ∨ j.safety = none ∧ j.limits = some (lower, upper))
      (rest : Path M_PI toFloat base path joints) :
      Path M_PI toFloat base (⟨name, some j⟩ :: path)
        ((j.name, ⟨true, toFloat lower, toFloat upper⟩) :: joints)

/-- The members after some joints have been added. -/
def Members.withJoints (m : Members K) (joints : List (String × JointLimit K))
    (linkNames : List String) : Members K where
  jointNames := m.jointNames ++ joints.map Prod.fst
  limits := m.limits ++ joints.map Prod.snd
  linkNames := linkNames
  active := m.active

/-- What one link adds to a path. -/
theorem Path.cons {M_PI : K} {toFloat : K → K} {base : String} {link : UrdfLink K}
    {path : List (UrdfLink K)} {joints : List (String × JointLimit K)}
    (h : Path M_PI toFloat base (link :: path) joints) :
    link.name ≠ base ∧
      ∃ first rest, joints = first ++ rest ∧ first.length ≤ 1 ∧ Path M_PI toFloat base path rest ∧
        ∀ m : Members K, m.addLink M_PI toFloat link =
          some (m.withJoints first (m.linkNames ++ [link.name])) := by
  cases h with
  | root below rest =>
    refine ⟨below, [], joints, rfl, Nat.zero_le 1, rest, fun m => ?_⟩
    simp [Members.addLink, UrdfLink.movable, Members.withJoints]
  | @rigid name j _ _ below type rest =>
    have hmovable : (⟨name, some j⟩ : UrdfLink K).movable = none := by
      rcases type with type | type <;> simp [UrdfLink.movable, Option.filter, type]
    refine ⟨below, [], joints, rfl, Nat.zero_le 1, rest, fun m => ?_⟩
    simp [Members.addLink, hmovable, Members.withJoints]
  | @continuous name j _ _ below type rest =>
    have hmovable : (⟨name, some j⟩ : UrdfLink K).movable = some j := by
      simp [UrdfLink.movable, Option.filter, type]
    have hlimit : j.jointLimit M_PI toFloat = some ⟨false, -M_PI, M_PI⟩ :=
      if_neg (not_not_intro type)
    refine ⟨below, [_], _, rfl, le_rfl, rest, fun m => ?_⟩
    simp [Members.addLink, hmovable, hlimit, Members.withJoints]
  | @limited name j lower upper _ _ below type limits rest =>
    have htype : j.type ≠ .UNKNOWN ∧ j.type ≠ .FIXED ∧ j.type ≠ .CONTINUOUS := by
      revert type
      cases j.type <;> decide
    have hmovable : (⟨name, some j⟩ : UrdfLink K).movable = some j := by
      simp [UrdfLink.movable, Option.filter, htype]
    have hlimit : j.jointLimit M_PI toFloat = some ⟨true, toFloat lower, toFloat upper⟩ := by
      rw [UrdfJoint.jointLimit, if_pos htype.2.2]
      rcases limits with hsafety | ⟨hnone, hown⟩
      · rw [hsafety, Option.some_or, Option.map_some]
      · rw [hnone, hown, Option.none_or, Option.map_some]
    refine ⟨below, [_], _, rfl, le_rfl, rest, fun m => ?_⟩
    simp [Members.addLink, hmovable, hlimit, Members.withJoints]

/-- **What the loop takes in**: the joints of the path, up to one more than the solver has. -/
theorem Path.walk_eq {M_PI : K} {toFloat : K → K} {base : String} {path : List (UrdfLink K)}
    {joints : List (String × JointLimit K)} (h : Path M_PI toFloat base path joints)
    {baseLink : UrdfLink K} (hbase : baseLink.name = base) (above : List (UrdfLink K))
    {numJoints : Nat} {m : Members K} (hm : m.jointNames.length ≤ numJoints + 1) :
    ∃ linkNames, walk M_PI toFloat base numJoints (path ++ baseLink :: above) m =
      some (m.withJoints (joints.take (numJoints + 1 - m.jointNames.length)) linkNames) := by
  induction path generalizing joints m with
  | nil =>
    cases h
    refine ⟨m.linkNames, ?_⟩
    rw [List.nil_append, walk, if_neg (fun hne => hne.1 hbase)]
    simp [Members.withJoints]
  | cons link path ih =>
    obtain ⟨hbelow, first, rest, rfl, hfirst, hpath, hadd⟩ := h.cons
    rw [List.cons_append, walk]
    by_cases hlen : m.jointNames.length ≤ numJoints
    · rw [if_pos ⟨hbelow, hlen⟩, hadd]
      have hm' : (m.withJoints first (m.linkNames ++ [link.name])).jointNames.length ≤
          numJoints + 1 := by
        simp only [Members.withJoints, List.length_append, List.length_map]
        omega
      obtain ⟨linkNames, hwalk⟩ := ih hpath hm'
      refine ⟨linkNames, ?_⟩
      simp only [hwalk]
      have htake : (first ++ rest).take (numJoints + 1 - m.jointNames.length) =
          first ++ rest.take (numJoints + 1 - (m.jointNames.length + first.length)) := by
        rw [List.take_append, List.take_of_length_le (by omega), Nat.sub_add_eq]
      rw [htake]
      simp [Members.withJoints]
    · rw [if_neg (fun h => hlen h.2)]
      have hzero : numJoints + 1 - m.jointNames.length = 0 := by omega
      refine ⟨m.linkNames, ?_⟩
      rw [hzero]
      simp [Members.withJoints]

theorem Path.initialize_eq {M_PI : K} {toFloat : K → K} {base : String} {path : List (UrdfLink K)}
    {joints : List (String × JointLimit K)} (h : Path M_PI toFloat base path joints)
    {baseLink : UrdfLink K} (hbase : baseLink.name = base) (above : List (UrdfLink K))
    {solver : Solver K} (hfree : solver.freeParameters.length ≤ 1) {m : Members K}
    (hm : m.jointNames.length ≤ solver.numJoints + 1) :
    ∃ linkNames, initializePlugin M_PI toFloat solver base (some (path ++ baseLink :: above)) m =
      some ((m.withJoints (joints.take (solver.numJoints + 1 - m.jointNames.length))
        linkNames).finish solver.numJoints) := by
  obtain ⟨linkNames, hwalk⟩ := h.walk_eq hbase above hm
  refine ⟨linkNames, ?_⟩
  rw [initializePlugin, if_neg (not_lt.mpr hfree)]
  simp only [hwalk, Option.map_some]

/-! ## The calls -/

/-- A tool that is fixed to an arm, which swings on a turntable. -/
def turntableLinks : List (UrdfLink ℚ) :=
  [⟨"tool0", some ⟨"joint_2-tool0", .FIXED, none, none⟩⟩,
    ⟨"link_2", some ⟨"joint_2", .REVOLUTE, some (-100, 140), none⟩⟩,
    ⟨"link_1", some ⟨"joint_1", .CONTINUOUS, none, none⟩⟩]

theorem turntable_path : Path (180 : ℚ) id "base_link" turntableLinks
    [("joint_2", ⟨true, -100, 140⟩), ("joint_1", ⟨false, -180, 180⟩)] :=
  .rigid (by decide) (.inr rfl) (.limited (by decide) (by decide) (.inr ⟨rfl, rfl⟩)
    (.continuous (by decide) rfl .nil))

def turntable : Solver ℚ := ⟨.transform6D, 2, [], fun _ _ _ => [], by simp⟩

/-- **The first call** succeeds when the joints on the path are as many as the solver's. Then they
are listed from the base to the tip, with a limit for each. -/
theorem initialize_iff {M_PI : K} {toFloat : K → K} {base : String} {path : List (UrdfLink K)}
    {joints : List (String × JointLimit K)} (h : Path M_PI toFloat base path joints)
    {baseLink : UrdfLink K} (hbase : baseLink.name = base) (above : List (UrdfLink K))
    (solver : Solver K) (hfree : solver.freeParameters.length ≤ 1) :
    ∃ r, initializePlugin M_PI toFloat solver base (some (path ++ baseLink :: above))
        (Members.fresh K) = some r ∧
      (r.1 = true ↔ joints.length = solver.numJoints) ∧ r.2.active = r.1 ∧
      (r.1 = true → r.2.jointNames = (joints.map Prod.fst).reverse ∧
        r.2.limits = (joints.map Prod.snd).reverse ∧ r.2.limits.length = solver.numJoints) := by
  obtain ⟨linkNames, heq⟩ := h.initialize_eq hbase above hfree
    (m := Members.fresh K) (Nat.zero_le _)
  refine ⟨_, heq, ?_⟩
  simp only [Members.finish, Members.withJoints, Members.fresh, List.nil_append, List.length_nil,
    Nat.sub_zero, List.length_map, List.length_take]
  by_cases hlen : joints.length = solver.numJoints
  · rw [if_neg (by omega), List.take_of_length_le (by omega)]
    simp [hlen]
  · rw [if_pos (by omega)]
    simp [hlen]

theorem initialize_iff_turntable :
    ∃ r, initializePlugin (180 : ℚ) id turntable "base_link"
        (some (turntableLinks ++ [⟨"base_link", none⟩])) (Members.fresh ℚ) = some r ∧
      (r.1 = true ↔ 2 = 2) ∧ r.2.active = r.1 ∧
      (r.1 = true → r.2.jointNames = ["joint_1", "joint_2"] ∧
        r.2.limits = [⟨false, -180, 180⟩, ⟨true, -100, 140⟩] ∧ r.2.limits.length = 2) :=
  initialize_iff turntable_path (show (⟨"base_link", none⟩ : UrdfLink ℚ).name = _ from rfl) []
    turntable (Nat.zero_le 1)

/-- What further calls keep: the plugin is active, and its first entries are those of the solver's
joints. -/
structure Members.Configured (numJoints : Nat) (joints : List (String × JointLimit K))
    (m : Members K) : Prop where
  active_eq : m.active = true
  length_eq : m.jointNames.length = numJoints ∨ m.jointNames.length = numJoints + 1
  names : m.jointNames.take numJoints = (joints.map Prod.fst).reverse
  limits : m.limits.take numJoints = (joints.map Prod.snd).reverse

omit [Neg K] in
theorem Members.Configured.again {numJoints : Nat} {joints : List (String × JointLimit K)}
    {m : Members K} (h : m.Configured numJoints joints) (hpos : 0 < numJoints)
    (hlen : joints.length = numJoints) (linkNames : List String) :
    ∃ m', (m.withJoints (joints.take (numJoints + 1 - m.jointNames.length)) linkNames).finish
        numJoints = (false, m') ∧ m'.Configured numJoints joints := by
  have hlimits : numJoints ≤ m.limits.length := by
    have := congrArg List.length h.limits
    simp only [List.length_take, List.length_reverse, List.length_map] at this
    omega
  have htotal : (m.withJoints (joints.take (numJoints + 1 - m.jointNames.length))
      linkNames).jointNames.length = numJoints + 1 := by
    simp only [Members.withJoints, List.length_append, List.length_map, List.length_take]
    have := h.length_eq
    omega
  refine ⟨_, if_pos (by omega), h.active_eq, .inr htotal, ?_, ?_⟩
  · have hnames : numJoints ≤ m.jointNames.length := by
      have := h.length_eq
      omega
    rw [Members.withJoints, List.take_append_of_le_length hnames]
    exact h.names
  · rw [Members.withJoints, List.take_append_of_le_length hlimits]
    exact h.limits

theorem Path.again_step {M_PI : K} {toFloat : K → K} {base : String} {path : List (UrdfLink K)}
    {joints : List (String × JointLimit K)} (h : Path M_PI toFloat base path joints)
    {baseLink : UrdfLink K} (hbase : baseLink.name = base) (above : List (UrdfLink K))
    {solver : Solver K} (hfree : solver.freeParameters.length ≤ 1)
    (hlen : joints.length = solver.numJoints) (hpos : 0 < solver.numJoints) {m : Members K}
    (hm : m.Configured solver.numJoints joints) :
    ∃ m', initializePlugin M_PI toFloat solver base (some (path ++ baseLink :: above)) m =
      some (false, m') ∧ m'.Configured solver.numJoints joints := by
  have hle : m.jointNames.length ≤ solver.numJoints + 1 := by
    have := hm.length_eq
    omega
  obtain ⟨linkNames, heq⟩ := h.initialize_eq hbase above hfree hle
  obtain ⟨m', hm', hconf⟩ := hm.again hpos hlen linkNames
  exact ⟨m', by rw [heq, hm'], hconf⟩

theorem Path.again_run {M_PI : K} {toFloat : K → K} {base : String} {path : List (UrdfLink K)}
    {joints : List (String × JointLimit K)} (h : Path M_PI toFloat base path joints)
    {baseLink : UrdfLink K} (hbase : baseLink.name = base) (above : List (UrdfLink K))
    {solver : Solver K} (hfree : solver.freeParameters.length ≤ 1)
    (hlen : joints.length = solver.numJoints) (hpos : 0 < solver.numJoints) (n : Nat)
    {m : Members K} (hm : m.Configured solver.numJoints joints) :
    ∃ m', initializeAgain M_PI toFloat solver base (some (path ++ baseLink :: above)) n m =
      some (false, m') ∧ m'.Configured solver.numJoints joints := by
  induction n generalizing m with
  | zero => exact h.again_step hbase above hfree hlen hpos hm
  | succ n ih =>
    obtain ⟨m', heq, hconf⟩ := h.again_step hbase above hfree hlen hpos hm
    obtain ⟨m'', hrest, hconf'⟩ := ih hconf
    exact ⟨m'', by simp only [initializeAgain, heq, hrest], hconf'⟩

/-- **Every further call** with the same arguments fails, and leaves an active plugin with the
limits of the first call at the places of the solver's joints. -/
theorem initialize_again {M_PI : K} {toFloat : K → K} {base : String} {path : List (UrdfLink K)}
    {joints : List (String × JointLimit K)} (h : Path M_PI toFloat base path joints)
    {baseLink : UrdfLink K} (hbase : baseLink.name = base) (above : List (UrdfLink K))
    (solver : Solver K) (hfree : solver.freeParameters.length ≤ 1)
    (hlen : joints.length = solver.numJoints) (hpos : 0 < solver.numJoints) (n : Nat) :
    ∃ m, initializeAgain M_PI toFloat solver base (some (path ++ baseLink :: above)) (n + 1)
        (Members.fresh K) = some (false, m) ∧ m.Configured solver.numJoints joints := by
  obtain ⟨linkNames, heq⟩ := h.initialize_eq hbase above hfree
    (m := Members.fresh K) (Nat.zero_le _)
  simp only [Members.finish, Members.withJoints, Members.fresh, List.nil_append, List.length_nil,
    Nat.sub_zero, List.length_map, List.length_take] at heq
  rw [if_neg (by omega), List.take_of_length_le (by omega)] at heq
  have hconf : (⟨(joints.map Prod.fst).reverse, (joints.map Prod.snd).reverse, linkNames.reverse,
      true⟩ : Members K).Configured solver.numJoints joints :=
    ⟨rfl, .inl (by simp [hlen]), List.take_of_length_le (by simp [hlen]),
      List.take_of_length_le (by simp [hlen])⟩
  obtain ⟨m, hrest, hconf'⟩ := h.again_run hbase above hfree hlen hpos n hconf
  exact ⟨m, by simp only [initializeAgain, Members.fresh, heq, hrest], hconf'⟩

theorem initialize_again_turntable :
    ∃ m, initializeAgain (180 : ℚ) id turntable "base_link"
        (some (turntableLinks ++ [⟨"base_link", none⟩])) 1 (Members.fresh ℚ) = some (false, m) ∧
      m.Configured 2 [("joint_2", ⟨true, -100, 140⟩), ("joint_1", ⟨false, -180, 180⟩)] :=
  initialize_again turntable_path (show (⟨"base_link", none⟩ : UrdfLink ℚ).name = _ from rfl) []
    turntable (Nat.zero_le 1) rfl two_pos 0

end Walk

end Ik

end FanucDriver
