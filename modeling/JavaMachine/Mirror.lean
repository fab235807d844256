import JavaMachine.Heap

/-!
# Mirrors

The mirror of a class is the object that stands for it among the objects of `java/lang/Class`.
Until the bootstrap loader has defined that class there are none; when it does, every class that
it has defined before gets one.
-/

namespace JavaMachine.World

/-- Gives a class a new mirror, unless it has one. -/
def installMirror (mirrorClass target : ClassId) : WorldM Unit := do
  let mirror ← allocateInstance mirrorClass (.mirror target)
  modify fun world => world.modifyType target fun type =>
    { type with mirror := type.mirror.or (some mirror) }

/-- Gives a mirror to each of the classes that has none. -/
def installMissingMirrors (mirrorClass : ClassId) : List ClassId → WorldM Unit
  | [] => return
  | target :: rest => do
      if ((← get).type target).mirror.isNone then installMirror mirrorClass target
      installMissingMirrors mirrorClass rest

/-- Sees to it that a class has a mirror, as far as that is possible. -/
def ensureMirror (id : ClassId) : WorldM Unit := do
  let world ← get
  let type := world.type id
  if type.mirror.isNone then
    if type.name = WellKnown.classClass ∧ type.loader = .bootstrap then
      installMirror id id
      installMissingMirrors id ((← get).loader .bootstrap).directory.classes
    else
      match world.findLoaded .bootstrap WellKnown.classClass with
      | some mirrorClass => installMirror mirrorClass id
      | none => return

end JavaMachine.World
