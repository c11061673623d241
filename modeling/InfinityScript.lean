import InfinityScript.Main
import InfinityScript.Proofs.Argument.Flags
import InfinityScript.Proofs.Argument.Joining
import InfinityScript.Proofs.Argument.TableNames
import InfinityScript.Proofs.Code.Cursor
import InfinityScript.Proofs.Console.Difference
import InfinityScript.Proofs.Console.Report
import InfinityScript.Proofs.Script.Comments
import InfinityScript.Proofs.Script.FoldCase
import InfinityScript.Proofs.Script.Framing
import InfinityScript.Proofs.Script.LineNumbers
import InfinityScript.Proofs.Script.ObjectSlots
import InfinityScript.Proofs.Script.OrGroups
import InfinityScript.Proofs.Script.Overflow
import InfinityScript.Proofs.Script.Override
import InfinityScript.Proofs.Script.Provenance
import InfinityScript.Proofs.Script.Recording
import InfinityScript.Proofs.Script.Strict
import InfinityScript.Proofs.Script.Words
import InfinityScript.Proofs.Source.LineReader
import InfinityScript.Proofs.Symbol.Added
