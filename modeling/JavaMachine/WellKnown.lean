/-!
# Well-known names

The classes and members that the machine itself refers to.
-/

namespace JavaMachine.WellKnown

def objectClass : String := "java/lang/Object"
def stringClass : String := "java/lang/String"
def classClass : String := "java/lang/Class"
def cloneableClass : String := "java/lang/Cloneable"
def serializableClass : String := "java/io/Serializable"

/-- The name of every constructor. -/
def constructor : String := "<init>"

/-- The name of a static initializer. -/
def staticInitializer : String := "<clinit>"

/-- The descriptor of a method without parameters and result. -/
def noArguments : String := "()V"

end JavaMachine.WellKnown
