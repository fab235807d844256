import JavaMachine.Main
import JavaMachine.Program
import JavaMachine.Proofs.Computation
import JavaMachine.Proofs.FieldLayout
import JavaMachine.Proofs.Growth
import JavaMachine.Proofs.Descriptor
import JavaMachine.Proofs.Soundness
import JavaMachine.Proofs.Naming
import JavaMachine.Proofs.Evolution
import JavaMachine.Proofs.Work
import JavaMachine.Proofs.Linking
import JavaMachine.Proofs.Attachment
import JavaMachine.Proofs.Definitions
import JavaMachine.Proofs.Loading
import JavaMachine.Proofs.Resolution
import JavaMachine.Proofs.Operation
import JavaMachine.Proofs.Journal
import JavaMachine.Proofs.Initialization
import JavaMachine.Proofs.Dispatch
import JavaMachine.Proofs.Undisturbed
import JavaMachine.Proofs.Fields
import JavaMachine.Proofs.Assignability
import JavaMachine.Proofs.Stability
import JavaMachine.Proofs.Completeness
import JavaMachine.Proofs.Circularity
import JavaMachine.Proofs.History
import JavaMachine.Proofs.Session
import JavaMachine.Proofs.Operands
import JavaMachine.Proofs.Discipline
import JavaMachine.Proofs.Calls
import JavaMachine.Proofs.Stores
import JavaMachine.Proofs.Contents
import JavaMachine.Proofs.Retrieval
import JavaMachine.Proofs.Ranges
import JavaMachine.Proofs.ArrayStores
import JavaMachine.Proofs.Titles
import JavaMachine.Proofs.Constants
import JavaMachine.Proofs.Format
import JavaMachine.Proofs.Prefixes
import JavaMachine.Proofs.Directory
import JavaMachine.Proofs.ArrayClasses
import JavaMachine.Proofs.Reentry
import JavaMachine.Proofs.Links
import JavaMachine.Proofs.Searches
import JavaMachine.Proofs.Order
import JavaMachine.Proofs.Failure
import JavaMachine.Proofs.Strings
import JavaMachine.Proofs.Mirrors
import JavaMachine.Proofs.Interfaces
import JavaMachine.Proofs.Declarations
import JavaMachine.Proofs.Members
import JavaMachine.Proofs.Finality
import JavaMachine.Proofs.Repetition
import JavaMachine.Proofs.ArrayTrees
import JavaMachine.Proofs.Signatures
import JavaMachine.Proofs.NestedArrays
import JavaMachine.Proofs.Encoding
import JavaMachine.Proofs.MethodKinds
import JavaMachine.Proofs.AttributeLinking
