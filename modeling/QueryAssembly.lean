import QueryAssembly.Compact
import QueryAssembly.Document
import QueryAssembly.Proofs.Except
import QueryAssembly.Proofs.Query.Agreement
import QueryAssembly.Proofs.Query.Build
import QueryAssembly.Proofs.Query.Consistency
import QueryAssembly.Proofs.Query.Contents
import QueryAssembly.Proofs.Query.DefaultArguments
import QueryAssembly.Proofs.Query.EmptySelection
import QueryAssembly.Proofs.Query.Faults
import QueryAssembly.Proofs.Query.Outcome
import QueryAssembly.Proofs.Query.Rearrangement
import QueryAssembly.Proofs.Session.Snapshot
import QueryAssembly.Proofs.Text.Brackets
import QueryAssembly.Proofs.Text.Trimming
import QueryAssembly.Proofs.Transform.Conservation
import QueryAssembly.Proofs.Transform.Descent
import QueryAssembly.Proofs.Transform.Laws
import QueryAssembly.Proofs.Transform.NormalForm
import QueryAssembly.Proofs.Transform.Rows
import QueryAssembly.Proofs.VariableType.Acceptance
import QueryAssembly.Proofs.VariableType.BracketFault
import QueryAssembly.Proofs.VariableType.Compact
import QueryAssembly.Proofs.VariableType.Construction
import QueryAssembly.Proofs.VariableType.Diagnosis
import QueryAssembly.Proofs.VariableType.Grammar
import QueryAssembly.Proofs.VariableType.NameConversion
import QueryAssembly.Proofs.VariableType.Reference
import QueryAssembly.Proofs.VariableType.RoundTrip
import QueryAssembly.Proofs.Variables.Declarations
import QueryAssembly.Query
import QueryAssembly.Session
import QueryAssembly.Text
import QueryAssembly.Transform
import QueryAssembly.VariableType.Basic
import QueryAssembly.VariableType.Reader
import QueryAssembly.Variables
