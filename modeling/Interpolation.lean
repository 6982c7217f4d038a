import Interpolation.CommandLine.Folder
import Interpolation.Main
import Interpolation.Proofs.Braces
import Interpolation.Record
import Interpolation.Proofs.Segmentation
import Interpolation.Proofs.Scanner
import Interpolation.Proofs.CharacterMachine
import Interpolation.Proofs.Joins
import Interpolation.Proofs.TwoPasses
import Interpolation.Proofs.LayeredExpansion
import Interpolation.Proofs.Occurrences
import Interpolation.Proofs.OpaqueReplacements
import Interpolation.Proofs.NestingDepth
import Interpolation.Proofs.FailingLookups
import Interpolation.Proofs.Unanswered
import Interpolation.Proofs.ByteOrder
import Interpolation.Proofs.ConfigurationMaps
import Interpolation.Proofs.CommandLineItems
import Interpolation.Proofs.Sessions
import Interpolation.Proofs.Locations
import Interpolation.Proofs.Seams
import Interpolation.Proofs.Sites
import Interpolation.Proofs.IntegerNames
import Interpolation.Proofs.Negation
import Interpolation.Proofs.PassOrder
import Interpolation.Proofs.ObjectPaths
import Interpolation.Proofs.LosslessTables
import Interpolation.Proofs.ListTexts
import Interpolation.Proofs.ChoiceSets
import Interpolation.Proofs.StoredIntegers
