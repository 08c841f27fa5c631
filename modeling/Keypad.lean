import Keypad.Proofs.Calculator.Divisor
import Keypad.Proofs.Calculator.Exact
import Keypad.Proofs.Calculator.Precision
import Keypad.Proofs.Config.Document
import Keypad.Proofs.Double.HalfUp
import Keypad.Proofs.Expression.Layout
import Keypad.Proofs.Expression.Postorder
import Keypad.Proofs.Expression.Stacks
import Keypad.Proofs.Json.Members
import Keypad.Proofs.Session.Emptied
import Keypad.Proofs.Session.Lines
import Keypad.Proofs.Session.StartOver
import Keypad.Proofs.Session.Typing
