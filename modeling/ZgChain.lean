import ZgChain.Crypto.CurveSound
import ZgChain.Sdk.Staking
import ZgChain.Bep3.LifeSound
import ZgChain.Bep3.ClaimSound
import ZgChain.Bep3.GenesisSound
import ZgChain.Bep3.RateSound
import ZgChain.Bep3.RoundTripSound
import ZgChain.Bep3.ExpirySound
import ZgChain.Evmutil.BackedSound
import ZgChain.Evmutil.SpendSound
import ZgChain.Evmutil.SmallSound
import ZgChain.Evmutil.WrappedSound
import ZgChain.Evmutil.PairSound
import ZgChain.Evmutil.ExportSound
import ZgChain.Evmutil.BlockedSound
import ZgChain.Evmutil.InvariantSound
import ZgChain.Issuance.SeizeSound
import ZgChain.Issuance.SweepSound
import ZgChain.Issuance.RateSound
import ZgChain.Issuance.BlockListSound
import ZgChain.Committees.PermissionSound
import ZgChain.Committees.StoreSound
import ZgChain.Committees.EnactSound
import ZgChain.Committees.HaltSound
import ZgChain.Committees.ExportSound
import ZgChain.Committees.RecordSound
import ZgChain.Committees.TallySound
import ZgChain.Dasigners.RandomnessSound
import ZgChain.Dasigners.ReadOnlySound
import ZgChain.Dasigners.EpochSound
import ZgChain.Dasigners.SeatSound
import ZgChain.Dasigners.ExportSound
import ZgChain.Dasigners.HaltSound
import ZgChain.Dasigners.CallSound
import ZgChain.Dasigners.AtomicSound
import ZgChain.Dasigners.QuorumSound
import ZgChain.Dasigners.LayoutSound
import ZgChain.Dasigners.AggregateSound
import ZgChain.Dasigners.BondedSound
import ZgChain.Dasigners.SignerSound
import ZgChain.Pricefeed.GenesisSound
import ZgChain.Pricefeed.RobustSound
import ZgChain.Pricefeed.KeySound
import ZgChain.App.AuthzLimiter
import ZgChain.App.OrderSound
import ZgChain.Council.ExportSound
import ZgChain.Migrate.ResetSound
import ZgChain.Chaincfg.InflationSound
import ZgChain.App.Payments
import ZgChain.App.Chain
import ZgChain.App.ChainSound
import ZgChain.App.Ante
import ZgChain.App.AnteSound
import ZgChain.App.MintSound
import ZgChain.Client.InflightSound
import ZgChain.Committees.AuthoritySound
import ZgChain.Issuance.Genesis
import ZgChain.Issuance.RestartSound
import ZgChain.Lib.Split
import ZgChain.Opendb.Stats
import ZgChain.Opendb.StatsSound
import ZgChain.Council.TermSound
import ZgChain.Dasigners.OriginSound
import ZgChain.Dasigners.ShareSound
