import KalmanFilter.Estimate.Statistics
import KalmanFilter.Model.Matrix
import KalmanFilter.Model.Pendulum
import KalmanFilter.Motion.Choice
import KalmanFilter.Text.Message
import KalmanFilter.Text.Record
import KalmanFilter.Text.Setup
import KalmanFilter.Text.Time
import KalmanFilter.Proofs.Atomicity
import KalmanFilter.Proofs.Cycle
import KalmanFilter.Proofs.Ending
import KalmanFilter.Proofs.Joseph
import KalmanFilter.Proofs.Semidefinite
import KalmanFilter.Proofs.SymmetricSystem
import KalmanFilter.Proofs.WellPosed
import KalmanFilter.Proofs.Stack
import KalmanFilter.Proofs.Simultaneous
import KalmanFilter.Proofs.TensorForm
import KalmanFilter.Proofs.Blocks
import KalmanFilter.Proofs.Selection
import KalmanFilter.Proofs.Columns
import KalmanFilter.Proofs.Part
import KalmanFilter.Proofs.Simulation
import KalmanFilter.Proofs.Layouts
import KalmanFilter.Proofs.DiagonalSystem
import KalmanFilter.Proofs.MotionPart
import KalmanFilter.Proofs.Independence
import KalmanFilter.Proofs.TimePolicy
import KalmanFilter.Proofs.MixedTypes
import KalmanFilter.Proofs.SymmetryCheck
import KalmanFilter.Proofs.Generators
import KalmanFilter.Proofs.Uncertainty
import KalmanFilter.Proofs.Superposition
import KalmanFilter.Proofs.Textbook
import KalmanFilter.Proofs.LinearForm
import KalmanFilter.Proofs.CholeskyVerdict
import KalmanFilter.Proofs.LUVerdict
import KalmanFilter.Proofs.Precondition
import KalmanFilter.Proofs.PolynomialMotion
import KalmanFilter.Proofs.DrivingNoise
import KalmanFilter.Proofs.BayesianUpdate
import KalmanFilter.Proofs.ZeroLength
import KalmanFilter.Proofs.OptimalGain
import KalmanFilter.Proofs.Narrowing
import KalmanFilter.Proofs.Coordinates
import KalmanFilter.Proofs.SymmetricParts
import KalmanFilter.Proofs.InnovationRejection
import KalmanFilter.Proofs.GaussianStatistics
import KalmanFilter.Proofs.PendulumDerivative
import KalmanFilter.Proofs.PendulumGrid
import KalmanFilter.Proofs.Records
import KalmanFilter.Proofs.Interleaving
import KalmanFilter.Proofs.TaylorRange
